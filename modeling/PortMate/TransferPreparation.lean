import PortMate.TransferEndpoints

namespace PortMate

open Bool String

/-- The settings of a profile that a transfer reads. -/
structure TransferSettings where
  kind : SessionKind
  defaultLocalDir : Option String
  enabled : TransferProtocol → Bool

inductive LocalTransferPathPlatform
  | unix | windows
  deriving DecidableEq

inductive LocalTransferPathKind
  | relative | absolute | rootedWithoutDrive | driveRelative | foreignAnchored
  deriving DecidableEq

def isAnySeparator (c : Char) : Bool := c = '/' || c = '\\'

def hasDrivePrefix : List Char → Bool
  | letter :: ':' :: _ => letter.isAlpha
  | _ => false

def classifyLocalTransferPath (value : String) (platform : LocalTransferPathPlatform) :
    LocalTransferPathKind :=
  let text := value.toList
  let firstIsSeparator := text.head?.any isAnySeparator
  match platform with
  | .unix =>
    if text.head? = some '/' then .absolute
    else if firstIsSeparator || hasDrivePrefix text then .foreignAnchored
    else .relative
  | .windows =>
    if hasDrivePrefix text then
      if text[2]?.any isAnySeparator then .absolute else .driveRelative
    else if firstIsSeparator && text[1]?.any isAnySeparator then .absolute
    else if firstIsSeparator then .rootedWithoutDrive
    else .relative

/-- `Path::join` of a relative name. -/
def joinPath (platform : LocalTransferPathPlatform) (directory name : String) : String :=
  let text := directory.toList
  let ended := match platform with
    | .unix => text.getLast?.all (· = '/')
    | .windows => text.getLast?.all isAnySeparator || (text.length = 2 && hasDrivePrefix text)
  directory ++ (if ended then "" else if platform = .unix then "/" else "\\") ++ name

/-- The components of a path; an anchor counts as one. -/
def pathComponents (platform : LocalTransferPathPlatform) (path : String) : List (List Char) :=
  let text := path.toList
  match platform with
  | .unix =>
    (if text.head? = some '/' then [['/']] else []) ++
      (text.splitOn '/').filter fun component => !component.isEmpty && component ≠ ['.']
  | .windows =>
    let anchor := if hasDrivePrefix text then text.take 2 else []
    let tail := text.drop anchor.length
    (if anchor.isEmpty then [] else [anchor]) ++
      (if tail.head?.any isAnySeparator then [['\\']] else []) ++
      (tail.splitOnP isAnySeparator).filter fun component =>
        !component.isEmpty && component ≠ ['.']

/-- `Path::file_name`, as text. -/
def pathFileName (platform : LocalTransferPathPlatform) (path : String) : Option String :=
  match (pathComponents platform path).getLast? with
  | none => none
  | some name =>
    if name = ['.', '.'] || name.all isAnySeparator || (platform = .windows && hasDrivePrefix name)
    then none
    else some (ofList name)

def hasLocalHomePrefix (path : String) (windows : Bool) : Bool :=
  path = "~" || "~/".isPrefixOf path || (windows && "~\\".isPrefixOf path)

def localHomeRelativePath (path : String) (windows : Bool) : Option String :=
  let relative :=
    if path = "~" then some ""
    else (stripPrefix? "~/" path).or (if windows then stripPrefix? "~\\" path else none)
  (relative.map fun relative =>
    relative.toList.dropWhile fun c => c = '/' || (windows && c = '\\')).bind fun relative =>
      if windows && hasDrivePrefix relative then none else some (ofList relative)

def expandIdentityPathWithHome (path : String) (home : Option String)
    (platform : LocalTransferPathPlatform) : String :=
  match home, localHomeRelativePath path (platform = .windows) with
  | some home, some relative => joinPath platform home relative
  | _, _ => path

def expandLocalHomeTransferPath (value : String) (home : Option String)
    (platform : LocalTransferPathPlatform) : Except String String :=
  if (localHomeRelativePath value (platform = .windows)).isNone then
    .error "本地 ~ 路径不能包含 Windows 盘符后缀"
  else if home.isNone then .error "无法解析本地 ~ 路径：系统用户主目录不可用"
  else .ok (expandIdentityPathWithHome value home platform)

def resolveTransferDefaultLocalDirWithHome (defaultLocalDir : Option String)
    (platform : LocalTransferPathPlatform) (home : Option String) :
    Except String (Option String) :=
  match defaultLocalDir.filter fun path => !(rustTrim path).isEmpty with
  | none => .ok none
  | some defaultLocalDir =>
    if hasLocalHomePrefix defaultLocalDir (platform = .windows) then
      (expandLocalHomeTransferPath defaultLocalDir home platform).map some
    else if classifyLocalTransferPath defaultLocalDir platform ≠ .absolute then
      .error "Profile 默认本地目录必须是当前平台的完整绝对路径或以 ~ 开头"
    else .ok (some defaultLocalDir)

def resolveDefaultLocalTransferPathWithHome (value : String) (defaultLocalDir : Option String)
    (platform : LocalTransferPathPlatform) (home : Option String) : Except String String :=
  if isNonlocalTransferEndpoint value then .ok value
  else if hasLocalHomePrefix value (platform = .windows) then
    expandLocalHomeTransferPath value home platform
  else
    match classifyLocalTransferPath value platform with
    | .absolute => .ok value
    | .relative =>
      .ok (defaultLocalDir.elim value fun directory => joinPath platform directory value)
    | .rootedWithoutDrive => .error "Windows 本地传输路径必须包含盘符或完整 UNC 前缀"
    | .driveRelative => .error "Windows 本地传输路径不能使用 drive-relative 形式"
    | .foreignAnchored => .error "本地传输路径与当前操作系统不兼容"

def remotePathHasDotComponents (path : List Char) : Bool :=
  (path.splitOnP isAnySeparator).any fun component => component = ['.'] || component = ['.', '.']

def validateRemoteTransferPath (path label : String) : Except String Unit :=
  let normalized := (path.toList.reverse.dropWhile (· = '/')).reverse
  if (rustTrim path).isEmpty || normalized.isEmpty ||
      [['.'], ['.', '.'], ['~'], ['/'], ['/', '/']].any (· = normalized) ||
      path.toList.contains '\x00' ||
      remotePathHasDotComponents normalized then
    .error s!"{label}不能为空、包含 NUL、使用 . / .. 分量或指向根目录"
  else .ok ()

def validateRemoteEndpoint (endpoint label : String) : Except String Unit :=
  match remotePath endpoint with
  | none => .ok ()
  | some path => validateRemoteTransferPath path label

def validateTransferProtocol (settings : TransferSettings) (protocol : TransferProtocol)
    (accessesRemote : Bool) : Except String Unit :=
  let files := protocol = .sftp || protocol = .scp
  let sshLike := settings.kind = .ssh || settings.kind = .tmux
  if !accessesRemote && files then .ok ()
  else if accessesRemote && files && !sshLike then
    .error s!"{transferProtocolLabel protocol} 仅支持 SSH/Tmux 会话"
  else if settings.enabled protocol then .ok ()
  else .error s!"{transferProtocolLabel protocol} 已在 Profile 传输设置中禁用"

/-- An unprefixed destination of a modem upload is the path of the receiver. -/
def implicitModemRemoteDestination (protocol : TransferProtocol) (source destination : String) :
    Bool :=
  (protocol = .xmodem || protocol = .ymodem || protocol = .zmodem) &&
    !hasRemoteTransferPrefix source && !isNonlocalTransferEndpoint destination

/-- `return Err(error)` under a condition. -/
def rejectIf (condition : Bool) (error : String) : Except String Unit :=
  if condition then .error error else .ok ()

def prepareTransferRequestWithHome (crates : EndpointCrates) (settings : TransferSettings)
    (request : StartTransferRequest) (platform : LocalTransferPathPlatform)
    (home : Option String) : Except String StartTransferRequest := do
  rejectIf (hasLoadReceiverPrefix request.source) "load: 设备接收端点只能作为 Modem 上传目标"
  let loadReceiver ← validateLoadReceiverEndpoint crates request.destination request.protocol
  rejectIf (loadReceiver && hasRemoteTransferPrefix request.source)
    "load: 设备接收端点只支持从 PortMate 本机文件上传"
  let accessesRemote :=
    isNonlocalTransferEndpoint request.source || isNonlocalTransferEndpoint request.destination
  validateTransferProtocol settings request.protocol accessesRemote
  validateRemoteEndpoint request.source "远端传输源路径"
  validateRemoteEndpoint request.destination "远端传输目标路径"
  let defaultLocalDir ←
    resolveTransferDefaultLocalDirWithHome settings.defaultLocalDir platform home
  let source ←
    resolveDefaultLocalTransferPathWithHome request.source defaultLocalDir platform home
  let destination ← bif implicitModemRemoteDestination request.protocol source request.destination
    then .ok request.destination
    else resolveDefaultLocalTransferPathWithHome request.destination defaultLocalDir platform home
  return { request with source, destination }

theorem rejectIf_eq_ok_iff {condition : Bool} {error : String} {done : Unit} :
    rejectIf condition error = .ok done ↔ condition = false := by
  cases condition <;> simp [rejectIf]

/-- What a preparation that succeeds has checked, and the endpoints it leaves. -/
structure Prepared (settings : TransferSettings) (request prepared : StartTransferRequest)
    (platform : LocalTransferPathPlatform) (home : Option String) : Prop where
  sessionId : prepared.sessionId = request.sessionId
  protocol : prepared.protocol = request.protocol
  source_not_load : hasLoadReceiverPrefix request.source = false
  destination_not_load : hasLoadReceiverPrefix request.destination = true →
    request.protocol ≠ .sftp ∧ request.protocol ≠ .scp
  resolved : ∃ directory,
    resolveTransferDefaultLocalDirWithHome settings.defaultLocalDir platform home = .ok directory ∧
    resolveDefaultLocalTransferPathWithHome request.source directory platform home =
      .ok prepared.source ∧
    (prepared.destination = request.destination ∨
      resolveDefaultLocalTransferPathWithHome request.destination directory platform home =
        .ok prepared.destination)

theorem prepareTransferRequestWithHome_ok {crates : EndpointCrates} {settings : TransferSettings}
    {request prepared : StartTransferRequest} {platform : LocalTransferPathPlatform}
    {home : Option String}
    (done : prepareTransferRequestWithHome crates settings request platform home = .ok prepared) :
    Prepared settings request prepared platform home := by
  obtain ⟨_, sourceLoad, done⟩ := except_bind_eq_ok done
  obtain ⟨receiver, validated, done⟩ := except_bind_eq_ok done
  obtain ⟨_, _, done⟩ := except_bind_eq_ok done
  obtain ⟨_, _, done⟩ := except_bind_eq_ok done
  obtain ⟨_, _, done⟩ := except_bind_eq_ok done
  obtain ⟨_, _, done⟩ := except_bind_eq_ok done
  obtain ⟨directory, resolvedDirectory, done⟩ := except_bind_eq_ok done
  obtain ⟨source, resolvedSource, done⟩ := except_bind_eq_ok done
  obtain ⟨destination, resolvedDestination, done⟩ := except_bind_eq_ok done
  cases done
  refine ⟨rfl, rfl, rejectIf_eq_ok_iff.mp sourceLoad,
    (validateLoadReceiverEndpoint_ok validated).2, directory, resolvedDirectory, resolvedSource, ?_⟩
  cases implicit : implicitModemRemoteDestination request.protocol source request.destination with
  | true =>
    rw [implicit] at resolvedDestination
    exact .inl (Except.ok.inj resolvedDestination).symm
  | false =>
    rw [implicit] at resolvedDestination
    exact .inr resolvedDestination

section Resolution

variable {platform : LocalTransferPathPlatform} {value resolved : String} {directory : Option String}
  {home : Option String}

theorem nonlocal_cases (marked : isNonlocalTransferEndpoint value = true) :
    ∃ rest, value.toList = "remote:".toList ++ rest ∨ value.toList = "ssh:".toList ++ rest ∨
      value.toList = "load:".toList ++ rest := by
  simp only [isNonlocalTransferEndpoint, or_eq_true, isPrefixOf_iff] at marked
  obtain (⟨rest, same⟩ | ⟨rest, same⟩) | ⟨rest, same⟩ := marked
  · exact ⟨rest, .inl same.symm⟩
  · exact ⟨rest, .inr (.inl same.symm)⟩
  · exact ⟨rest, .inr (.inr same.symm)⟩

theorem local_of_absolute (absolute : classifyLocalTransferPath value platform = .absolute) :
    isNonlocalTransferEndpoint value = false := by
  rw [← not_eq_true]
  intro marked
  obtain ⟨rest, same | same | same⟩ := nonlocal_cases marked <;>
    cases platform <;>
      simp [classifyLocalTransferPath, same, hasDrivePrefix, isAnySeparator] at absolute

theorem absolute_unix_iff :
    classifyLocalTransferPath value .unix = .absolute ↔ ∃ rest, value.toList = '/' :: rest := by
  unfold classifyLocalTransferPath
  constructor
  · intro absolute
    simp only at absolute
    split at absolute
    next slash => exact List.head?_eq_some_iff.mp slash
    next => split at absolute <;> cases absolute
  · rintro ⟨rest, same⟩
    simp [same]

theorem absolute_windows_iff :
    classifyLocalTransferPath value .windows = .absolute ↔
      (∃ letter third rest, letter.isAlpha = true ∧ isAnySeparator third = true ∧
        value.toList = letter :: ':' :: third :: rest) ∨
      ∃ first second rest, isAnySeparator first = true ∧ isAnySeparator second = true ∧
        value.toList = first :: second :: rest := by
  have apart : ∀ c, isAnySeparator c = true → c.isAlpha = false := by
    intro c separator
    simp only [isAnySeparator, or_eq_true, decide_eq_true_eq] at separator
    obtain rfl | rfl := separator <;> decide
  unfold classifyLocalTransferPath
  constructor
  · intro absolute
    simp only at absolute
    split at absolute
    next drive =>
      split at absolute
      next third =>
        refine .inl ?_
        unfold hasDrivePrefix at drive
        split at drive
        next letter tail same =>
          cases tail with
          | nil => simp [same] at third
          | cons next rest => exact ⟨letter, next, rest, drive, by simpa [same] using third, same⟩
        next => cases drive
      next => cases absolute
    next =>
      split at absolute
      next anchored =>
        refine .inr ?_
        cases text : value.toList with
        | nil => simp [text] at anchored
        | cons first tail =>
          cases tail with
          | nil => simp [text] at anchored
          | cons second rest =>
            obtain ⟨one, two⟩ : isAnySeparator first = true ∧ isAnySeparator second = true := by
              simpa [text] using anchored
            exact ⟨first, second, rest, one, two, rfl⟩
      next => split at absolute <;> cases absolute
  · rintro (⟨letter, third, rest, alpha, separator, same⟩ | ⟨first, second, rest, one, two, same⟩)
    · simp [same, hasDrivePrefix, alpha, separator]
    · have drive : hasDrivePrefix (first :: second :: rest) = false := by
        unfold hasDrivePrefix
        split
        next letter rest' shape =>
          obtain ⟨rfl, _⟩ : first = letter ∧ _ := List.cons.inj shape
          exact apart first one
        next => rfl
      simp [same, drive, one, two]

theorem not_home_of_absolute {windows : Bool}
    (absolute : classifyLocalTransferPath value platform = .absolute) :
    hasLocalHomePrefix value windows = false := by
  rw [← not_eq_true]
  intro marked
  have tilde : ∃ rest, value.toList = '~' :: rest ∧ rest.head? ≠ some ':' := by
    simp only [hasLocalHomePrefix, or_eq_true, and_eq_true, decide_eq_true_eq,
      isPrefixOf_iff] at marked
    obtain (rfl | ⟨rest, same⟩) | ⟨_, rest, same⟩ := marked
    · exact ⟨[], rfl, by simp⟩
    · exact ⟨'/' :: rest, same.symm, by simp⟩
    · exact ⟨'\\' :: rest, same.symm, by simp⟩
  obtain ⟨rest, same, colon⟩ := tilde
  cases platform with
  | unix =>
    obtain ⟨_, other⟩ := absolute_unix_iff.mp absolute
    exact absurd (List.cons.inj (same.symm.trans other)).1 (by decide)
  | windows =>
    obtain ⟨_, _, _, _, _, other⟩ | ⟨_, _, _, separator, _, other⟩ := absolute_windows_iff.mp absolute
    · exact colon (by rw [(List.cons.inj (same.symm.trans other)).2]; rfl)
    · rw [← (List.cons.inj (same.symm.trans other)).1] at separator
      exact absurd separator (by decide)

theorem resolve_nonlocal (marked : isNonlocalTransferEndpoint value = true)
    (done : resolveDefaultLocalTransferPathWithHome value directory platform home = .ok resolved) :
    resolved = value := by
  rw [resolveDefaultLocalTransferPathWithHome, if_pos marked] at done
  exact (Except.ok.inj done).symm

theorem resolve_absolute (absolute : classifyLocalTransferPath value platform = .absolute)
    (done : resolveDefaultLocalTransferPathWithHome value directory platform home = .ok resolved) :
    resolved = value := by
  rw [resolveDefaultLocalTransferPathWithHome, local_of_absolute absolute,
    not_home_of_absolute absolute, absolute] at done
  exact (Except.ok.inj done).symm

theorem absolute_append (absolute : classifyLocalTransferPath value platform = .absolute)
    (rest : String) : classifyLocalTransferPath (value ++ rest) platform = .absolute := by
  cases platform with
  | unix =>
    obtain ⟨tail, same⟩ := absolute_unix_iff.mp absolute
    exact absolute_unix_iff.mpr ⟨tail ++ rest.toList, by rw [toList_append, same]; rfl⟩
  | windows =>
    refine absolute_windows_iff.mpr ?_
    obtain ⟨letter, third, tail, alpha, separator, same⟩ | ⟨first, second, tail, one, two, same⟩ :=
      absolute_windows_iff.mp absolute
    · exact .inl ⟨letter, third, tail ++ rest.toList, alpha, separator, by
        rw [toList_append, same]; rfl⟩
    · exact .inr ⟨first, second, tail ++ rest.toList, one, two, by
        rw [toList_append, same]; rfl⟩

theorem absolute_join (absolute : classifyLocalTransferPath value platform = .absolute)
    (name : String) : classifyLocalTransferPath (joinPath platform value name) platform =
      .absolute :=
  absolute_append (absolute_append absolute _) name

theorem expand_local (home_absolute : ∀ path, home = some path →
      classifyLocalTransferPath path platform = .absolute)
    (done : expandLocalHomeTransferPath value home platform = .ok resolved) :
    classifyLocalTransferPath resolved platform = .absolute := by
  unfold expandLocalHomeTransferPath at done
  split at done
  next => cases done
  next relative =>
    cases home with
    | none => cases done
    | some home =>
      cases found : localHomeRelativePath value (platform = .windows) with
      | none => simp [found] at relative
      | some relative =>
        have same : resolved = joinPath platform home relative := by
          simpa [expandIdentityPathWithHome, found, eq_comm] using done
        rw [same]
        exact absolute_join (home_absolute home rfl) relative

theorem resolve_local (home_absolute : ∀ path, home = some path →
      classifyLocalTransferPath path platform = .absolute)
    {defaultLocalDir : Option String}
    (resolvedDirectory : resolveTransferDefaultLocalDirWithHome defaultLocalDir platform home =
      .ok directory)
    (unmarked : isNonlocalTransferEndpoint value = false)
    (done : resolveDefaultLocalTransferPathWithHome value directory platform home = .ok resolved) :
    isNonlocalTransferEndpoint resolved = false := by
  rw [resolveDefaultLocalTransferPathWithHome, unmarked] at done
  simp only [false_eq_true, if_false] at done
  split at done
  · exact local_of_absolute (expand_local home_absolute done)
  · split at done
    · cases done; exact unmarked
    · cases directory with
      | none => cases done; exact unmarked
      | some directory =>
        cases done
        refine local_of_absolute (absolute_join ?_ value)
        unfold resolveTransferDefaultLocalDirWithHome at resolvedDirectory
        split at resolvedDirectory
        next => cases resolvedDirectory
        next default _ =>
          split at resolvedDirectory
          · cases expanded : expandLocalHomeTransferPath default home platform with
            | error error => rw [expanded] at resolvedDirectory; cases resolvedDirectory
            | ok path =>
              rw [expanded] at resolvedDirectory
              cases resolvedDirectory
              exact expand_local home_absolute expanded
          · split at resolvedDirectory
            next => cases resolvedDirectory
            next absolute =>
              cases resolvedDirectory
              exact not_not.mp absolute
    all_goals cases done

end Resolution

end PortMate
