import PortMate.SshAgentFilter

namespace PortMate

open List UInt8

theorem u32FromBeBytes_lt (a b c d : UInt8) : u32FromBeBytes a b c d < 2 ^ 32 := by
  have ha := a.toNat_lt
  have hb := b.toNat_lt
  have hc := c.toNat_lt
  have hd := d.toNat_lt
  unfold u32FromBeBytes
  omega

theorem u32ToBeBytes_fromBeBytes (a b c d : UInt8) :
    u32ToBeBytes (u32FromBeBytes a b c d) = [a, b, c, d] := by
  have ha := a.toNat_lt
  have hb := b.toNat_lt
  have hc := c.toNat_lt
  have hd := d.toNat_lt
  have digit : ∀ (n : Nat) (byte : UInt8), n % 256 = byte.toNat → ofNat n = byte := by
    intro n byte same
    apply UInt8.toNat_inj.mp
    rw [toNat_ofNat']
    exact same
  unfold u32ToBeBytes u32FromBeBytes
  rw [digit _ a (by omega), digit _ b (by omega), digit _ c (by omega), digit _ d (by omega)]

theorem u32FromBeBytes_toBeBytes {n : Nat} (small : n < 2 ^ 32) :
    u32FromBeBytes (ofNat (n / 2 ^ 24)) (ofNat (n / 2 ^ 16)) (ofNat (n / 2 ^ 8))
      (ofNat n) = n := by
  unfold u32FromBeBytes
  simp only [toNat_ofNat']
  omega

theorem readU32_eq_some {bytes rest : List UInt8} {n : Nat} :
    readU32 bytes = some (n, rest) ↔ n < 2 ^ 32 ∧ bytes = u32ToBeBytes n ++ rest := by
  constructor
  · intro read
    unfold readU32 at read
    split at read
    next a b c d left =>
      obtain ⟨rfl, rfl⟩ := Prod.mk.inj (Option.some.inj read)
      exact ⟨u32FromBeBytes_lt a b c d, by rw [u32ToBeBytes_fromBeBytes]; rfl⟩
    next => exact absurd read (by simp)
  · rintro ⟨small, rfl⟩
    change some (u32FromBeBytes _ _ _ _, rest) = _
    rw [u32FromBeBytes_toBeBytes small]

def sshString (value : List UInt8) : List UInt8 := u32ToBeBytes value.length ++ value

theorem readSshString_eq_some {bytes value rest : List UInt8} :
    readSshString bytes = some (value, rest) ↔
      value.length < 2 ^ 32 ∧ bytes = sshString value ++ rest := by
  unfold readSshString sshString
  constructor
  · intro read
    split at read
    next => exact absurd read (by simp)
    next length left header =>
      obtain ⟨fits, same⟩ := Option.ite_none_right_eq_some.mp read
      obtain ⟨rfl, rfl⟩ := Prod.mk.inj (Option.some.inj same)
      obtain ⟨small, rfl⟩ := readU32_eq_some.mp header
      rw [length_take_of_le fits, append_assoc, take_append_drop]
      exact ⟨small, rfl⟩
  · rintro ⟨small, rfl⟩
    have header := readU32_eq_some.mpr ⟨small, append_assoc (u32ToBeBytes value.length) value rest⟩
    rw [header]
    simp

/-- An identity of the agent: its key and its comment. -/
abbrev AgentIdentity := List UInt8 × List UInt8

def identityBytes (identities : List AgentIdentity) : List UInt8 :=
  identities.flatMap fun identity => sshString identity.1 ++ sshString identity.2

/-- What fits the length fields of the protocol. -/
structure Writable (identities : List AgentIdentity) : Prop where
  count : identities.length < 2 ^ 32
  strings : ∀ identity ∈ identities, identity.1.length < 2 ^ 32 ∧ identity.2.length < 2 ^ 32

/-- A well-formed answer to a request for the identities. -/
def identitiesAnswer (identities : List AgentIdentity) : List UInt8 :=
  sshAgentIdentitiesAnswer :: (u32ToBeBytes identities.length ++ identityBytes identities)

theorem Writable.filter {identities : List AgentIdentity} (writable : Writable identities)
    (keep : AgentIdentity → Bool) : Writable (identities.filter keep) where
  count := Nat.lt_of_le_of_lt (length_filter_le _ _) writable.count
  strings identity member := writable.strings identity (mem_filter.mp member).1

section Filter

variable {fingerprint : List UInt8 → Option String} {identityRefs : List IdentityRef}

def admits (fingerprint : List UInt8 → Option String) (identityRefs : List IdentityRef)
    (identity : AgentIdentity) : Bool :=
  agentIdentityBlobMatches fingerprint identity.1 identity.2 identityRefs

theorem readIdentities_eq_ok {count : Nat} {bytes rest : List UInt8}
    {selected : List AgentIdentity} :
    readIdentities fingerprint identityRefs count bytes = .ok (selected, rest) ↔
      ∃ identities : List AgentIdentity, identities.length = count ∧
        (∀ identity ∈ identities, identity.1.length < 2 ^ 32 ∧ identity.2.length < 2 ^ 32) ∧
        bytes = identityBytes identities ++ rest ∧
        selected = identities.filter (admits fingerprint identityRefs) := by
  induction count generalizing bytes selected with
  | zero =>
    constructor
    · intro read
      obtain ⟨rfl, rfl⟩ := Prod.mk.inj (Except.ok.inj read)
      exact ⟨[], rfl, fun _ none => absurd none not_mem_nil, rfl, rfl⟩
    · rintro ⟨identities, none, -, rfl, rfl⟩
      obtain rfl := eq_nil_of_length_eq_zero none
      rfl
  | succ count ih =>
    constructor
    · intro read
      unfold readIdentities at read
      split at read
      next => exact absurd read (by simp)
      next key bytes₁ keyRead =>
        split at read
        next => exact absurd read (by simp)
        next comment bytes₂ commentRead =>
          split at read
          next => exact absurd read (by simp)
          next others left othersRead =>
            obtain ⟨keySmall, rfl⟩ := readSshString_eq_some.mp keyRead
            obtain ⟨commentSmall, rfl⟩ := readSshString_eq_some.mp commentRead
            have read : selected = (if admits fingerprint identityRefs (key, comment) then
                [(key, comment)] else []) ++ others ∧ left = rest := by
              unfold admits
              split at read
              next hit => rw [if_pos hit]; simpa [eq_comm] using read
              next miss => rw [if_neg miss]; simpa [eq_comm] using read
            obtain ⟨rfl, rfl⟩ := read
            obtain ⟨identities, length, small, rfl, rfl⟩ := ih.mp othersRead
            refine ⟨(key, comment) :: identities, by rw [length_cons, length], ?_, ?_, ?_⟩
            · intro identity member
              rcases mem_cons.mp member with rfl | later
              · exact ⟨keySmall, commentSmall⟩
              · exact small identity later
            · simp [identityBytes, append_assoc]
            · rw [filter_cons]
              split <;> rfl
    · rintro ⟨identities, length, small, rfl, rfl⟩
      obtain ⟨⟨key, comment⟩, others, rfl⟩ := exists_cons_of_length_eq_add_one length
      obtain ⟨keySmall, commentSmall⟩ := small (key, comment) mem_cons_self
      have bytes : identityBytes ((key, comment) :: others) ++ rest =
          sshString key ++ (sshString comment ++ (identityBytes others ++ rest)) := by
        simp [identityBytes, append_assoc]
      have later := ih.mpr ⟨others, Nat.succ.inj length,
        fun identity member => small identity (mem_cons_of_mem _ member), rfl, rfl⟩
      unfold readIdentities
      rw [bytes, readSshString_eq_some.mpr ⟨keySmall, rfl⟩]
      dsimp only
      rw [readSshString_eq_some.mpr ⟨commentSmall, rfl⟩]
      dsimp only
      rw [later, filter_cons]
      dsimp only
      unfold admits
      split <;> rfl

theorem pushIdentities_eq_ok {identities : List AgentIdentity}
    (small : ∀ identity ∈ identities, identity.1.length < 2 ^ 32 ∧ identity.2.length < 2 ^ 32)
    (target : List UInt8) :
    pushIdentities target identities = .ok (target ++ identityBytes identities) := by
  induction identities generalizing target with
  | nil => simp [pushIdentities, identityBytes]
  | cons identity identities ih =>
    obtain ⟨keySmall, commentSmall⟩ := small identity mem_cons_self
    have push : ∀ (target value : List UInt8), value.length < 2 ^ 32 →
        pushSshString target value = .ok (target ++ sshString value) := by
      intro target value fits
      unfold pushSshString u32Length
      rw [if_pos fits]
      rfl
    unfold pushIdentities
    rw [push _ _ keySmall]
    change pushSshString (target ++ sshString identity.1) identity.2 >>= _ = _
    rw [push _ _ commentSmall]
    change pushIdentities (target ++ sshString identity.1 ++ sshString identity.2) identities = _
    rw [ih fun other member => small other (mem_cons_of_mem _ member)]
    simp [identityBytes, append_assoc]

theorem filterIdentityResponse_answer {identities : List AgentIdentity}
    (writable : Writable identities) :
    filterIdentityResponse fingerprint (identitiesAnswer identities) identityRefs =
      .ok (identitiesAnswer (identities.filter (admits fingerprint identityRefs)),
        (identities.filter (admits fingerprint identityRefs)).map (·.1)) := by
  have kept := writable.filter (admits fingerprint identityRefs)
  have header : readU32 (u32ToBeBytes identities.length ++ identityBytes identities) =
      some (identities.length, identityBytes identities) :=
    readU32_eq_some.mpr ⟨writable.count, rfl⟩
  have items : readIdentities fingerprint identityRefs identities.length (identityBytes identities) =
      .ok (identities.filter (admits fingerprint identityRefs), []) :=
    readIdentities_eq_ok.mpr
      ⟨identities, rfl, writable.strings, (append_nil _).symm, rfl⟩
  unfold filterIdentityResponse identitiesAnswer
  dsimp only
  rw [if_neg (by simp), header]
  dsimp only
  rw [items]
  change (u32Length (identities.filter (admits fingerprint identityRefs)).length _ >>= _) = _
  unfold u32Length
  rw [if_pos kept.count]
  change (pushIdentities (sshAgentIdentitiesAnswer :: u32ToBeBytes _) _ >>= _) = _
  rw [pushIdentities_eq_ok kept.strings]
  rfl

theorem filterIdentityResponse_ok {answer response : List UInt8} {keys : List (List UInt8)}
    (kind : answer.head? = some sshAgentIdentitiesAnswer)
    (passes : filterIdentityResponse fingerprint answer identityRefs = .ok (response, keys)) :
    ∃ identities, Writable identities ∧ answer = identitiesAnswer identities ∧
      response = identitiesAnswer (identities.filter (admits fingerprint identityRefs)) ∧
      keys = (identities.filter (admits fingerprint identityRefs)).map (·.1) := by
  obtain ⟨rest, rfl⟩ : ∃ rest, answer = sshAgentIdentitiesAnswer :: rest := by
    cases answer with
    | nil => exact absurd kind (by simp)
    | cons first rest => exact ⟨rest, by rw [Option.some.inj kind]⟩
  have passed := passes
  unfold filterIdentityResponse at passes
  dsimp only at passes
  rw [if_neg (by simp)] at passes
  split at passes
  next => exact absurd passes (by simp)
  next count bytes header =>
    obtain ⟨⟨selected, left⟩, items, passes⟩ := except_bind_eq_ok passes
    obtain ⟨small, rfl⟩ := readU32_eq_some.mp header
    obtain ⟨identities, rfl, strings, rfl, rfl⟩ := readIdentities_eq_ok.mp items
    have trailing : left = [] := by
      cases left with
      | nil => rfl
      | cons byte left => exact absurd passes (by simp [throw, throwThe, MonadExceptOf.throw, bind, Except.bind])
    subst trailing
    rw [append_nil] at passed
    have writable : Writable identities := ⟨small, strings⟩
    have same := passed.symm.trans (filterIdentityResponse_answer writable)
    obtain ⟨rfl, rfl⟩ := Prod.mk.inj (Except.ok.inj same)
    exact ⟨identities, writable, by rw [append_nil]; rfl, rfl, rfl⟩

end Filter

end PortMate
