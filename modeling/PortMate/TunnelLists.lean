import Mathlib.Data.List.Nodup
import PortMate.McpRequests
import PortMate.TunnelRoutes

namespace PortMate

open List

def maxTunnelsPerProfile : Nat := 64
def maxTunnelIdCharacters : Nat := 128
def maxTunnelLabelCharacters : Nat := 128

structure TunnelDefinition where
  id : List Char
  label : List Char
  egress : TunnelEgress
  mode : TunnelMode
  bindHost : List Char
  bindPort : Nat
  targetHost : List Char
  targetPort : Nat
  routeRules : List TunnelRouteRule
  enabled : Bool
  deriving DecidableEq

section Lists

variable {ν : Type} (networks : IpNetworks ν)

def normalizeTunnel (tunnel : TunnelDefinition) : TunnelDefinition :=
  let tunnel := { tunnel with
    id := trimText tunnel.id, label := trimText tunnel.label
    bindHost := trimText tunnel.bindHost, targetHost := trimText tunnel.targetHost }
  if tunnel.mode = .dynamic then
    { tunnel with
      targetHost := [], targetPort := 0
      routeRules := normalizeTunnelRouteRules networks tunnel.routeRules }
  else { tunnel with routeRules := [] }

/-- The part of `validate_tunnel` for one mode. -/
def validateTunnelMode (tunnel : TunnelDefinition) : Except String Unit :=
  match tunnel.mode with
  | .dynamic =>
    if !tunnel.targetHost.isEmpty || tunnel.targetPort ≠ 0 then
      .error "dynamic tunnel must not have a target"
    else do
      validateTunnelRouteRules networks tunnel.routeRules
      if tunnel.egress = .portmateHost && tunnel.routeRules.isEmpty then
        .error "PortMate host SOCKS5 proxies require at least one route rule"
      else .ok ()
  | .local | .remote =>
    if !tunnel.routeRules.isEmpty then
      .error "route rules are only supported by dynamic tunnels"
    else do
      validateHost "target host" tunnel.targetHost false
      if tunnel.targetPort = 0 then .error "target port must be between 1 and 65535" else .ok ()

def validateTunnel (tunnel : TunnelDefinition) : Except String Unit := do
  validateText "id" tunnel.id maxTunnelIdCharacters false false
  validateText "label" tunnel.label maxTunnelLabelCharacters false false
  validateHost "bind host" tunnel.bindHost (tunnel.mode = .remote)
  if tunnel.egress = .portmateHost && tunnel.mode = .remote then
    .error "PortMate host egress does not support remote SSH forwarding"
  else validateTunnelMode networks tunnel

/-- The loop of `validate_tunnels`; `ids` are the ids seen so far. -/
def validateTunnelsFrom (ids : List (List Char)) (index : Nat) :
    List TunnelDefinition → Except String Unit
  | [] => .ok ()
  | tunnel :: tunnels => do
    (validateTunnel networks tunnel).mapError fun error => s!"tunnel {index + 1}: {error}"
    if ids.contains tunnel.id then .error s!"tunnel {index + 1}: duplicate id"
    else validateTunnelsFrom (tunnel.id :: ids) (index + 1) tunnels

def validateTunnels (tunnels : List TunnelDefinition) : Except String Unit :=
  if maxTunnelsPerProfile < tunnels.length then
    .error s!"tunnel count exceeds {maxTunnelsPerProfile}"
  else validateTunnelsFrom networks [] 0 tunnels

/-- Whether `normalize_tunnels` takes the tunnel; its set of ids is that of `normalized`. -/
def admitsTunnel (normalized : List TunnelDefinition) (tunnel : TunnelDefinition) : Bool :=
  (validateTunnel networks tunnel).isOk && !(normalized.map (·.id)).contains tunnel.id

/-- The loop of `normalize_tunnels` over the tunnels in the order in which it takes them. -/
def normalizeTunnelsFrom (normalized : List TunnelDefinition) :
    List TunnelDefinition → List TunnelDefinition
  | [] => normalized
  | tunnel :: tunnels =>
    if maxTunnelsPerProfile ≤ normalized.length then normalized
    else if admitsTunnel networks normalized (normalizeTunnel networks tunnel) then
      normalizeTunnelsFrom (normalized ++ [normalizeTunnel networks tunnel]) tunnels
    else normalizeTunnelsFrom normalized tunnels

def normalizeTunnels (tunnels : List TunnelDefinition) : List TunnelDefinition :=
  normalizeTunnelsFrom networks []
    (tunnels.filter (·.enabled) ++ tunnels.filter (!·.enabled))

/-- A list that `normalize_tunnels` may leave as it is: valid tunnels with ids of their own, no
more than fit in a profile. -/
structure TunnelsInForm (tunnels : List TunnelDefinition) : Prop where
  valid : ∀ tunnel ∈ tunnels, validateTunnel networks tunnel = .ok ()
  distinct : (tunnels.map (·.id)).Nodup
  bounded : tunnels.length ≤ maxTunnelsPerProfile

variable {networks}

theorem validateText_trimmed {label : String} {value : List Char} {max : Nat}
    {allowEmpty rejectWhitespace : Bool}
    (valid : validateText label value max allowEmpty rejectWhitespace = .ok ()) :
    trimText value = value := by
  unfold validateText at valid
  split at valid
  next => cases valid
  next trimmed => exact not_ne_iff.mp trimmed

theorem mapError_eq_ok {α β ε : Type} {f : α → β} {result : Except α ε} {value : ε}
    (h : result.mapError f = .ok value) : result = .ok value := by
  cases result with
  | error e => cases h
  | ok v =>
    cases h
    rfl

theorem validateRouteRule_normalized {rule : TunnelRouteRule}
    (valid : validateRouteRule networks rule = .ok ()) :
    normalizedRouteHost networks rule.host = rule.host := by
  unfold validateRouteRule at valid
  obtain ⟨_, -, valid⟩ := except_bind_eq_ok valid
  by_contra other
  rw [if_pos other] at valid
  cases valid

theorem validateRulesFrom_valid {seen : List (List Char × Option Nat)} {index : Nat}
    {rules : List TunnelRouteRule} (valid : validateRulesFrom networks seen index rules = .ok ()) :
    ∀ rule ∈ rules, validateRouteRule networks rule = .ok () := by
  induction rules generalizing seen index with
  | nil => exact fun rule mem => absurd mem not_mem_nil
  | cons first rules ih =>
    unfold validateRulesFrom at valid
    obtain ⟨_, firstValid, valid⟩ := except_bind_eq_ok valid
    intro rule mem
    obtain rfl | mem := mem_cons.mp mem
    · exact mapError_eq_ok firstValid
    · split at valid
      · cases valid
      · exact ih valid rule mem

theorem normalizeTunnelRouteRules_valid {rules : List TunnelRouteRule}
    (valid : validateTunnelRouteRules networks rules = .ok ()) :
    normalizeTunnelRouteRules networks rules = rules := by
  unfold validateTunnelRouteRules at valid
  split at valid
  · cases valid
  · refine (map_congr_left fun rule mem => ?_).trans rules.map_id
    have normalized := validateRouteRule_normalized (validateRulesFrom_valid valid rule mem)
    split
    · rfl
    · rw [normalized]
      rfl

variable {tunnel : TunnelDefinition}

theorem normalizeTunnel_valid (valid : validateTunnel networks tunnel = .ok ()) :
    normalizeTunnel networks tunnel = tunnel := by
  obtain ⟨id, label, egress, mode, bindHost, bindPort, targetHost, targetPort, routeRules,
    enabled⟩ := tunnel
  unfold validateTunnel at valid
  obtain ⟨_, idValid, valid⟩ := except_bind_eq_ok valid
  obtain ⟨_, labelValid, valid⟩ := except_bind_eq_ok valid
  obtain ⟨_, bindValid, valid⟩ := except_bind_eq_ok valid
  have idTrimmed : trimText id = id := validateText_trimmed idValid
  have labelTrimmed : trimText label = label := validateText_trimmed labelValid
  have bindTrimmed : trimText bindHost = bindHost := validateText_trimmed bindValid
  split at valid
  · cases valid
  · unfold normalizeTunnel validateTunnelMode at *
    cases mode with
    | dynamic =>
      simp only at valid
      split at valid
      next => cases valid
      next untargeted =>
        obtain ⟨_, rulesValid, -⟩ := except_bind_eq_ok valid
        simp only [Bool.or_eq_true, Bool.not_eq_true', decide_eq_true_eq, not_or,
          Bool.not_eq_false, List.isEmpty_iff, not_not] at untargeted
        obtain ⟨rfl, rfl⟩ := untargeted
        simp [idTrimmed, labelTrimmed, bindTrimmed, normalizeTunnelRouteRules_valid rulesValid]
    | «local» | remote =>
      simp only at valid
      split at valid
      next => cases valid
      next unruled =>
        obtain ⟨_, targetValid, -⟩ := except_bind_eq_ok valid
        have targetTrimmed : trimText targetHost = targetHost := validateText_trimmed targetValid
        simp only [Bool.not_eq_true', Bool.not_eq_false, List.isEmpty_iff] at unruled
        simp [idTrimmed, labelTrimmed, bindTrimmed, targetTrimmed, unruled]

theorem normalizeTunnel_enabled (tunnel : TunnelDefinition) :
    (normalizeTunnel networks tunnel).enabled = tunnel.enabled := by
  unfold normalizeTunnel
  simp only
  split <;> rfl

variable {normalized : List TunnelDefinition}

theorem admitsTunnel_iff :
    admitsTunnel networks normalized tunnel = true ↔
      validateTunnel networks tunnel = .ok () ∧ tunnel.id ∉ normalized.map (·.id) := by
  have checked : (validateTunnel networks tunnel).isOk = true ↔
      validateTunnel networks tunnel = .ok () := by
    cases validateTunnel networks tunnel with
    | error e => exact ⟨nofun, nofun⟩
    | ok u => exact ⟨fun _ => rfl, fun _ => rfl⟩
  rw [admitsTunnel, Bool.and_eq_true, checked, Bool.not_eq_true', ← Bool.not_eq_true,
    contains_iff_mem]

theorem TunnelsInForm.nil : TunnelsInForm networks [] :=
  ⟨fun _ mem => absurd mem not_mem_nil, nodup_nil, Nat.zero_le _⟩

theorem TunnelsInForm.extend (form : TunnelsInForm networks normalized)
    (room : ¬ maxTunnelsPerProfile ≤ normalized.length)
    (admitted : admitsTunnel networks normalized tunnel = true) :
    TunnelsInForm networks (normalized ++ [tunnel]) := by
  obtain ⟨valid, fresh⟩ := admitsTunnel_iff.mp admitted
  refine ⟨?_, ?_, ?_⟩
  · intro other mem
    obtain mem | mem := mem_append.mp mem
    · exact form.valid other mem
    · rw [mem_singleton.mp mem]
      exact valid
  · rw [map_append, nodup_append]
    refine ⟨form.distinct, nodup_singleton _, fun id mem other single same => fresh ?_⟩
    have last : other = tunnel.id := mem_singleton.mp single
    rwa [← last, ← same]
  · rw [length_append, length_singleton]
    omega

theorem normalizeTunnelsFrom_inForm {normalized : List TunnelDefinition}
    (tunnels : List TunnelDefinition) (form : TunnelsInForm networks normalized) :
    TunnelsInForm networks (normalizeTunnelsFrom networks normalized tunnels) := by
  induction tunnels generalizing normalized with
  | nil => exact form
  | cons tunnel tunnels ih =>
    unfold normalizeTunnelsFrom
    split
    next => exact form
    next room =>
      split
      next admitted => exact ih (form.extend room admitted)
      next => exact ih form

variable {tunnels : List TunnelDefinition}

theorem validateTunnelsFrom_valid {ids : List (List Char)} {index : Nat}
    (valid : ∀ tunnel ∈ tunnels, validateTunnel networks tunnel = .ok ())
    (distinct : (tunnels.map (·.id)).Nodup) (fresh : ∀ tunnel ∈ tunnels, tunnel.id ∉ ids) :
    validateTunnelsFrom networks ids index tunnels = .ok () := by
  induction tunnels generalizing ids index with
  | nil => rfl
  | cons tunnel tunnels ih =>
    obtain ⟨other, rest⟩ := nodup_cons.mp distinct
    unfold validateTunnelsFrom
    rw [valid tunnel mem_cons_self]
    change (if ids.contains tunnel.id then _ else _) = _
    rw [if_neg (by simpa using fresh tunnel mem_cons_self)]
    refine ih (fun later mem => valid later (mem_cons_of_mem _ mem)) rest ?_
    intro later mem inside
    obtain same | inside := mem_cons.mp inside
    · exact other (mem_map.mpr ⟨later, mem, same⟩)
    · exact fresh later (mem_cons_of_mem _ mem) inside

theorem TunnelsInForm.validated (form : TunnelsInForm networks tunnels) :
    validateTunnels networks tunnels = .ok () := by
  rw [validateTunnels, if_neg (Nat.not_lt.mpr form.bounded)]
  exact validateTunnelsFrom_valid form.valid form.distinct fun _ _ => not_mem_nil

theorem normalizeTunnelsFrom_settled {normalized tunnels : List TunnelDefinition}
    (form : TunnelsInForm networks (normalized ++ tunnels)) :
    normalizeTunnelsFrom networks normalized tunnels = normalized ++ tunnels := by
  induction tunnels generalizing normalized with
  | nil => exact normalized.append_nil.symm
  | cons tunnel tunnels ih =>
    have valid := form.valid tunnel (mem_append_right _ mem_cons_self)
    have bounded := form.bounded
    rw [length_append, length_cons] at bounded
    have fresh : tunnel.id ∉ normalized.map (·.id) := by
      have distinct := form.distinct
      rw [map_append, nodup_append] at distinct
      exact fun mem => distinct.2.2 _ mem _ mem_cons_self rfl
    unfold normalizeTunnelsFrom
    rw [if_neg (by omega), normalizeTunnel_valid valid, if_pos (admitsTunnel_iff.mpr ⟨valid, fresh⟩),
      ih (by rwa [append_assoc]), append_assoc]
    rfl

theorem normalizeTunnelsFrom_full (full : maxTunnelsPerProfile ≤ normalized.length)
    (tunnels : List TunnelDefinition) :
    normalizeTunnelsFrom networks normalized tunnels = normalized := by
  cases tunnels with
  | nil => rfl
  | cons tunnel tunnels =>
    unfold normalizeTunnelsFrom
    rw [if_pos full]

theorem normalizeTunnelsFrom_append (normalized front back : List TunnelDefinition) :
    normalizeTunnelsFrom networks normalized (front ++ back) =
      normalizeTunnelsFrom networks (normalizeTunnelsFrom networks normalized front) back := by
  induction front generalizing normalized with
  | nil => rfl
  | cons tunnel front ih =>
    rw [cons_append, normalizeTunnelsFrom, normalizeTunnelsFrom]
    split
    next full => exact (normalizeTunnelsFrom_full full back).symm
    next =>
      split
      · exact ih _
      · exact ih _

theorem normalizeTunnelsFrom_extends (normalized tunnels : List TunnelDefinition) :
    ∃ kept, normalizeTunnelsFrom networks normalized tunnels = normalized ++ kept ∧
      kept.Sublist (tunnels.map (normalizeTunnel networks)) := by
  induction tunnels generalizing normalized with
  | nil => exact ⟨[], normalized.append_nil.symm, List.Sublist.slnil⟩
  | cons tunnel tunnels ih =>
    unfold normalizeTunnelsFrom
    split
    · exact ⟨[], normalized.append_nil.symm, nil_sublist _⟩
    · split
      · obtain ⟨kept, whole, order⟩ := ih (normalized ++ [normalizeTunnel networks tunnel])
        refine ⟨normalizeTunnel networks tunnel :: kept, ?_, order.cons_cons _⟩
        rw [whole, append_assoc]
        rfl
      · obtain ⟨kept, whole, order⟩ := ih normalized
        exact ⟨kept, whole, order.cons _⟩

theorem normalizeTunnelsFrom_covers {normalized tunnels : List TunnelDefinition}
    (room : (normalizeTunnelsFrom networks normalized tunnels).length < maxTunnelsPerProfile)
    (mem : tunnel ∈ tunnels)
    (valid : validateTunnel networks (normalizeTunnel networks tunnel) = .ok ()) :
    (normalizeTunnel networks tunnel).id ∈
      (normalizeTunnelsFrom networks normalized tunnels).map (·.id) := by
  induction tunnels generalizing normalized with
  | nil => exact absurd mem not_mem_nil
  | cons first tunnels ih =>
    have kept : ∀ {taken : List TunnelDefinition} {id}, id ∈ taken.map (·.id) →
        id ∈ (normalizeTunnelsFrom networks taken tunnels).map (·.id) := by
      intro taken id inside
      obtain ⟨added, whole, -⟩ := @normalizeTunnelsFrom_extends _ networks taken tunnels
      rw [whole, map_append]
      exact mem_append_left _ inside
    unfold normalizeTunnelsFrom at room ⊢
    split at room
    next full => omega
    next notFull =>
      rw [if_neg notFull]
      split at room
      next admitted =>
        rw [if_pos admitted]
        obtain rfl | mem := mem_cons.mp mem
        · refine kept ?_
          rw [map_append]
          exact mem_append_right _ mem_cons_self
        · exact ih room mem
      next refused =>
        rw [if_neg refused]
        obtain rfl | mem := mem_cons.mp mem
        · refine kept ?_
          by_contra fresh
          exact refused (admitsTunnel_iff.mpr ⟨valid, fresh⟩)
        · exact ih room mem

variable (networks) in
/-- What the two passes of `normalize_tunnels` keep: the enabled tunnels first. -/
structure EnabledFirst (tunnels enabled disabled : List TunnelDefinition) : Prop where
  enabledOrder : enabled.Sublist ((tunnels.filter (·.enabled)).map (normalizeTunnel networks))
  disabledOrder : disabled.Sublist ((tunnels.filter (!·.enabled)).map (normalizeTunnel networks))
  /-- The disabled tunnels have no part in what enabled ones are kept. -/
  preferred : enabled = normalizeTunnels networks (tunnels.filter (·.enabled))
  /-- A disabled tunnel is kept only where no valid enabled one is left out for want of room. -/
  covered : disabled ≠ [] → ∀ tunnel ∈ tunnels, tunnel.enabled = true →
    validateTunnel networks (normalizeTunnel networks tunnel) = .ok () →
    (normalizeTunnel networks tunnel).id ∈ enabled.map (·.id)

theorem normalizeTunnels_enabled (tunnels : List TunnelDefinition) :
    normalizeTunnels networks (tunnels.filter (·.enabled)) =
      normalizeTunnelsFrom networks [] (tunnels.filter (·.enabled)) := by
  have none_disabled : (tunnels.filter (·.enabled)).filter (!·.enabled) = [] := by
    rw [filter_filter, filter_eq_nil_iff]
    simp
  have all_enabled : (tunnels.filter (·.enabled)).filter (·.enabled) =
      tunnels.filter (·.enabled) := by
    rw [filter_filter]
    simp
  rw [normalizeTunnels, none_disabled, all_enabled, append_nil]

theorem normalizeTunnels_parts (tunnels : List TunnelDefinition) :
    ∃ enabled disabled, normalizeTunnels networks tunnels = enabled ++ disabled ∧
      EnabledFirst networks tunnels enabled disabled := by
  obtain ⟨enabled, first, enabledOrder⟩ :=
    @normalizeTunnelsFrom_extends _ networks [] (tunnels.filter (·.enabled))
  rw [nil_append] at first
  obtain ⟨disabled, both, disabledOrder⟩ :=
    @normalizeTunnelsFrom_extends _ networks enabled (tunnels.filter (!·.enabled))
  have whole : normalizeTunnels networks tunnels = enabled ++ disabled := by
    rw [normalizeTunnels, normalizeTunnelsFrom_append, first, both]
  refine ⟨enabled, disabled, whole, enabledOrder, disabledOrder, ?_, ?_⟩
  · rw [normalizeTunnels_enabled, first]
  · intro some_disabled tunnel mem isEnabled valid
    have bounded := (@normalizeTunnelsFrom_inForm _ networks []
      (tunnels.filter (·.enabled) ++ tunnels.filter (!·.enabled)) .nil).bounded
    rw [← normalizeTunnels, whole, length_append] at bounded
    have some_length := length_pos_of_ne_nil some_disabled
    rw [← first]
    refine normalizeTunnelsFrom_covers ?_ (mem_filter.mpr ⟨mem, isEnabled⟩) valid
    rw [first]
    omega

theorem normalizeTunnels_sorted (tunnels : List TunnelDefinition) :
    (normalizeTunnels networks tunnels).filter (·.enabled) ++
        (normalizeTunnels networks tunnels).filter (!·.enabled) =
      normalizeTunnels networks tunnels := by
  obtain ⟨enabled, disabled, whole, parts⟩ := @normalizeTunnels_parts _ networks tunnels
  have enabledOnly : ∀ tunnel ∈ enabled, tunnel.enabled = true := by
    intro tunnel mem
    obtain ⟨original, inside, rfl⟩ := mem_map.mp (parts.enabledOrder.subset mem)
    rw [normalizeTunnel_enabled]
    exact (mem_filter.mp inside).2
  have disabledOnly : ∀ tunnel ∈ disabled, (!tunnel.enabled) = true := by
    intro tunnel mem
    obtain ⟨original, inside, rfl⟩ := mem_map.mp (parts.disabledOrder.subset mem)
    rw [normalizeTunnel_enabled]
    exact (mem_filter.mp inside).2
  rw [whole, List.filter_append, List.filter_append, filter_eq_self.mpr enabledOnly,
    filter_eq_self.mpr disabledOnly, filter_eq_nil_iff.mpr, filter_eq_nil_iff.mpr,
    append_nil, nil_append]
  · intro tunnel mem
    rw [enabledOnly tunnel mem]
    exact Bool.false_ne_true
  · intro tunnel mem isEnabled
    have := disabledOnly tunnel mem
    rw [isEnabled] at this
    cases this

theorem normalizeTunnels_settled (form : TunnelsInForm networks tunnels)
    (sorted : tunnels.filter (·.enabled) ++ tunnels.filter (!·.enabled) = tunnels) :
    normalizeTunnels networks tunnels = tunnels := by
  rw [normalizeTunnels, sorted]
  exact normalizeTunnelsFrom_settled (by rwa [nil_append])

/-- `normalize_tunnels` gives what `validate_tunnels` accepts, and the same when it is done
again. -/
theorem tunnel_lists_normalized (tunnels : List TunnelDefinition) :
    validateTunnels networks (normalizeTunnels networks tunnels) = .ok () ∧
    normalizeTunnels networks (normalizeTunnels networks tunnels) =
      normalizeTunnels networks tunnels ∧
    ((normalizeTunnels networks tunnels).map (·.id)).Nodup ∧
    (normalizeTunnels networks tunnels).length ≤ maxTunnelsPerProfile ∧
    ((normalizeTunnels networks tunnels).length < maxTunnelsPerProfile → ∀ tunnel ∈ tunnels,
      validateTunnel networks (normalizeTunnel networks tunnel) = .ok () →
      (normalizeTunnel networks tunnel).id ∈ (normalizeTunnels networks tunnels).map (·.id)) ∧
    ∃ enabled disabled, normalizeTunnels networks tunnels = enabled ++ disabled ∧
      EnabledFirst networks tunnels enabled disabled := by
  have form : TunnelsInForm networks (normalizeTunnels networks tunnels) :=
    normalizeTunnelsFrom_inForm _ .nil
  obtain ⟨enabled, disabled, whole, parts⟩ := @normalizeTunnels_parts _ networks tunnels
  refine ⟨form.validated, normalizeTunnels_settled form (normalizeTunnels_sorted tunnels),
    form.distinct, form.bounded, ?_, enabled, disabled, whole, parts⟩
  intro room tunnel mem valid
  refine normalizeTunnelsFrom_covers room ?_ valid
  rw [mem_append, mem_filter, mem_filter]
  cases known : tunnel.enabled with
  | true => exact .inl ⟨mem, rfl⟩
  | false => exact .inr ⟨mem, rfl⟩

end Lists

end PortMate
