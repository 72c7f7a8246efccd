import PortMate.JsonMerge

namespace PortMate

section Messages

variable {ν : Type}

/-- `Value::get`, at a name. -/
def JsonValue.get (value : JsonValue ν) (name : String) : Option (JsonValue ν) :=
  value.child (.key name)

def JsonValue.isArray : JsonValue ν → Bool
  | .array _ => true
  | _ => false

def JsonValue.isObject : JsonValue ν → Bool
  | .object _ => true
  | _ => false

/-- An `Option<Value>` is deserialized from `null` as `None`. -/
def JsonValue.optional : JsonValue ν → Option (JsonValue ν)
  | .null => none
  | value => some value

structure JsonRpcRequest (ν : Type) where
  jsonrpc : String
  id : Option (JsonValue ν)
  method : String
  params : JsonValue ν

structure JsonRpcError (ν : Type) where
  code : ν
  message : String
  data : Option (JsonValue ν)

structure JsonRpcResponse (ν : Type) where
  id : JsonValue ν
  result : Option (JsonValue ν)
  error : Option (JsonRpcError ν)

/-- What the messages take from outside: the numbers of a JSON text, and the deserializer's words for
a value that it refuses. -/
structure JsonTexts (ν : Type) where
  number : Int → ν
  refused : JsonValue ν → String

variable (texts : JsonTexts ν)

/-- The derived deserializer. A struct is read from an object by its names, and from an array by its
positions. -/
def JsonRpcRequest.fromValue (value : JsonValue ν) : Except String (JsonRpcRequest ν) :=
  match value with
  | .object fields =>
    match fields.lookup "jsonrpc", fields.lookup "method" with
    | some (.string jsonrpc), some (.string method) =>
      .ok {
        jsonrpc
        id := (fields.lookup "id").bind JsonValue.optional
        method
        params := (fields.lookup "params").getD .null }
    | _, _ => .error (texts.refused value)
  | .array [.string jsonrpc, id, .string method] =>
    .ok { jsonrpc, id := id.optional, method, params := .null }
  | .array [.string jsonrpc, id, .string method, params] =>
    .ok { jsonrpc, id := id.optional, method, params }
  | _ => .error (texts.refused value)

def JsonRpcError.toValue (error : JsonRpcError ν) : JsonValue ν :=
  .object ([("code", .number error.code), ("message", .string error.message)] ++
    (error.data.map fun data => ("data", data)).toList)

def JsonRpcResponse.toValue (response : JsonRpcResponse ν) : JsonValue ν :=
  .object ([("jsonrpc", .string "2.0"), ("id", response.id)] ++
    (response.result.map fun result => ("result", result)).toList ++
    (response.error.map fun error => ("error", error.toValue)).toList)

def jsonRpcError (id : JsonValue ν) (code : Int) (message : String) : JsonRpcResponse ν where
  id := id
  result := none
  error := some { code := texts.number code, message, data := none }

end Messages

open JsonRpcRequest

section Dispatch

variable {ν σ : Type} (texts : JsonTexts ν)

abbrev JsonRpcHandler (ν σ : Type) :=
  σ → JsonRpcRequest ν → σ × Except String (Option (JsonRpcResponse ν))

variable (handle : JsonRpcHandler ν σ)

def maxJsonRpcBatchItems : Nat := 128

def isJsonRpcId : JsonValue ν → Bool
  | .null | .number _ | .string _ => true
  | _ => false

def isStructured (params : JsonValue ν) : Bool := params.isArray || params.isObject

def answerOf (hasId : Bool) (id : JsonValue ν) :
    Except String (Option (JsonRpcResponse ν)) → Option (JsonRpcResponse ν)
  | .ok response => response
  | .error message => if hasId then some (jsonRpcError texts id (-32603) message) else none

def dispatchOneJsonRpcValue (state : σ) (value : JsonValue ν) : σ × Option (JsonRpcResponse ν) :=
  let hasId := (value.get "id").isSome
  let id := (value.get "id").getD .null
  if hasId && !isJsonRpcId id then
    (state, some (jsonRpcError texts .null (-32600) "JSON-RPC id must be a string, number, or null"))
  else if (value.get "params").any fun params => !isStructured params then
    (state, if hasId then
      some (jsonRpcError texts id (-32602) "JSON-RPC params must be an object or array")
    else none)
  else
    match fromValue texts value with
    | .error message => (state, some (jsonRpcError texts id (-32600) message))
    | .ok request =>
      let outcome := handle state (if hasId then { request with id := some id } else request)
      (outcome.1, answerOf texts hasId id outcome.2)

def dispatchJsonRpcItems (state : σ) :
    List (JsonValue ν) → σ × List (JsonRpcResponse ν)
  | [] => (state, [])
  | item :: items =>
    let (state, response) := dispatchOneJsonRpcValue texts handle state item
    let (state, responses) := dispatchJsonRpcItems state items
    (state, response.toList ++ responses)

def dispatchJsonRpcValue (state : σ) (value : JsonValue ν) : σ × Option (JsonValue ν) :=
  match value with
  | .array items =>
    if items.isEmpty then
      (state, some (jsonRpcError texts .null (-32600) "an empty JSON-RPC batch is invalid").toValue)
    else if maxJsonRpcBatchItems < items.length then
      (state, some (jsonRpcError texts .null (-32600)
        s!"JSON-RPC batch exceeds the {maxJsonRpcBatchItems}-item limit").toValue)
    else
      let (state, responses) := dispatchJsonRpcItems texts handle state items
      (state, if responses.isEmpty then none
        else some (.array (responses.map JsonRpcResponse.toValue)))
  | value =>
    let (state, response) := dispatchOneJsonRpcValue texts handle state value
    (state, response.map JsonRpcResponse.toValue)

/-- The bridge's handler. `perform` runs a method that it knows. -/
def handleMcpRequest
    (perform : σ → String → JsonValue ν → Option (σ × Except String (JsonValue ν))) :
    JsonRpcHandler ν σ := fun state request =>
  if request.jsonrpc ≠ "2.0" then
    (state, .ok (request.id.map fun id => jsonRpcError texts id (-32600) "invalid JSON-RPC version"))
  else
    match perform state request.method request.params with
    | none => (state, .ok (request.id.map fun id =>
        jsonRpcError texts id (-32601) s!"unknown method: {request.method}"))
    | some (state, .error message) => (state, .error message)
    | some (state, .ok result) =>
      (state, .ok (request.id.map fun id => { id, result := some result, error := none }))

end Dispatch

section Elements

variable {ν σ : Type}

inductive MakesRequest : JsonValue ν → JsonRpcRequest ν → Prop
  | object {fields : List (String × JsonValue ν)} {jsonrpc method : String}
      (version : fields.lookup "jsonrpc" = some (.string jsonrpc))
      (named : fields.lookup "method" = some (.string method))
      (id : ∀ id, fields.lookup "id" = some id → isJsonRpcId id = true)
      (params : ∀ params, fields.lookup "params" = some params → isStructured params = true) :
      MakesRequest (.object fields) {
        jsonrpc
        id := fields.lookup "id"
        method
        params := (fields.lookup "params").getD .null }

/-- A message that wants no answer, and whose params are not structured. -/
def BadNotification (value : JsonValue ν) : Prop :=
  value.get "id" = none ∧ ∃ params, value.get "params" = some params ∧ isStructured params = false

/-- The handler answers the requests that carry an id, with that id, or fails. -/
def AnswersRequests (handle : JsonRpcHandler ν σ) : Prop :=
  ∀ state request response, (handle state request).2 = .ok response →
    response.map JsonRpcResponse.id = request.id

def JsonRpcResponse.IsError (response : JsonRpcResponse ν) : Prop :=
  response.error.isSome = true ∧ response.result = none

/-- An array that has the strings of a request where the deserializer reads them by position. -/
inductive Positional : JsonValue ν → Prop
  | three (jsonrpc method : String) (id : JsonValue ν) :
      Positional (.array [.string jsonrpc, id, .string method])
  | four (jsonrpc method : String) (id params : JsonValue ν) :
      Positional (.array [.string jsonrpc, id, .string method, params])

/-- What an element of a message comes to. Of a positional array nothing is said. -/
inductive Element (handle : JsonRpcHandler ν σ) (before : σ) :
    JsonValue ν → σ → Option (JsonRpcResponse ν) → Prop
  | request {value : JsonValue ν} {request : JsonRpcRequest ν} {response : Option (JsonRpcResponse ν)}
      (made : MakesRequest value request)
      (answered : response.map JsonRpcResponse.id = request.id)
      (given : ∀ answer, (handle before request).2 = .ok answer → response = answer)
      (failed : ∀ message, (handle before request).2 = .error message →
        ∀ answer ∈ response, answer.IsError) :
      Element handle before value (handle before request).1 response
  | badNotification {value : JsonValue ν} (unmade : ∀ request, ¬MakesRequest value request)
      (bad : BadNotification value) : Element handle before value before none
  | refused {value : JsonValue ν} {response : JsonRpcResponse ν}
      (unmade : ∀ request, ¬MakesRequest value request) (wanted : ¬BadNotification value)
      (error : response.IsError) : Element handle before value before (some response)
  | positional {value : JsonValue ν} {after : σ} {response : Option (JsonRpcResponse ν)}
      (read : Positional value) : Element handle before value after response

/-- The elements one after the other, each with the state that the one before it left. -/
inductive Elements (handle : JsonRpcHandler ν σ) :
    σ → List (JsonValue ν) → σ → List (Option (JsonRpcResponse ν)) → Prop
  | done {state : σ} : Elements handle state [] state []
  | next {before between after : σ} {item : JsonValue ν} {items : List (JsonValue ν)}
      {response : Option (JsonRpcResponse ν)} {responses : List (Option (JsonRpcResponse ν))}
      (element : Element handle before item between response)
      (rest : Elements handle between items after responses) :
      Elements handle before (item :: items) after (response :: responses)

/-- What a message comes to, and what is sent back. -/
inductive Dispatched (handle : JsonRpcHandler ν σ) (before : σ) :
    JsonValue ν → σ → Option (JsonValue ν) → Prop
  | badBatch {items : List (JsonValue ν)} {response : JsonRpcResponse ν}
      (bad : items = [] ∨ maxJsonRpcBatchItems < items.length) (error : response.IsError) :
      Dispatched handle before (.array items) before (some response.toValue)
  | batch {items : List (JsonValue ν)} {after : σ} {responses : List (Option (JsonRpcResponse ν))}
      (due : items ≠ []) (few : items.length ≤ maxJsonRpcBatchItems)
      (elements : Elements handle before items after responses) :
      Dispatched handle before (.array items) after
        (if responses.reduceOption = [] then none
          else some (.array (responses.reduceOption.map JsonRpcResponse.toValue)))
  | single {value : JsonValue ν} {after : σ} {response : Option (JsonRpcResponse ν)}
      (one : value.isArray = false) (element : Element handle before value after response) :
      Dispatched handle before value after (response.map JsonRpcResponse.toValue)

end Elements

section Proofs

variable {ν σ : Type} (texts : JsonTexts ν)

theorem jsonRpcError_isError (id : JsonValue ν) (code : Int) (message : String) :
    (jsonRpcError texts id code message).IsError :=
  ⟨rfl, rfl⟩

theorem handleMcpRequest_answers
    (perform : σ → String → JsonValue ν → Option (σ × Except String (JsonValue ν))) :
    AnswersRequests (handleMcpRequest texts perform) := by
  intro state request response answered
  unfold handleMcpRequest at answered
  have mapped : ∀ answer : JsonValue ν → JsonRpcResponse ν, (∀ id, (answer id).id = id) →
      (request.id.map answer).map JsonRpcResponse.id = request.id := by
    intro answer same
    cases request.id with
    | none => rfl
    | some id => exact congrArg some (same id)
  split at answered
  · rw [← Except.ok.inj answered]
    exact mapped _ fun _ => rfl
  · split at answered
    · rw [← Except.ok.inj answered]
      exact mapped _ fun _ => rfl
    · cases answered
    · rw [← Except.ok.inj answered]
      exact mapped _ fun _ => rfl

variable {texts}

theorem fromValue_object {fields : List (String × JsonValue ν)}
    (id : ∀ id, fields.lookup "id" = some id → isJsonRpcId id = true)
    (params : ∀ params, fields.lookup "params" = some params → isStructured params = true) :
    (∃ request, fromValue texts (.object fields) = .ok request ∧
      MakesRequest (.object fields) { request with id := fields.lookup "id" } ∧
      request.id = (fields.lookup "id").bind JsonValue.optional) ∨
    ((∀ request, ¬MakesRequest (.object fields) request) ∧
      ∃ message, fromValue texts (.object fields) = .error message) := by
  rw [fromValue]
  split
  next jsonrpc method version named =>
    exact .inl ⟨_, rfl, .object version named id params, rfl⟩
  next other =>
    refine .inr ⟨?_, _, rfl⟩
    rintro _ ⟨version, named, -, -⟩
    exact other _ _ version named

theorem fromValue_array (items : List (JsonValue ν)) : Positional (.array items) ∨
    fromValue texts (.array items) = .error (texts.refused (.array items)) := by
  unfold fromValue
  split
  next object => cases object
  next array => exact .inl (array ▸ .three _ _ _)
  next array => exact .inl (array ▸ .four _ _ _ _)
  · exact .inr rfl

theorem requestId_eq {request : JsonRpcRequest ν} {id : Option (JsonValue ν)}
    (read : request.id = id.bind JsonValue.optional) :
    (if id.isSome then { request with id := some (id.getD .null) } else request) =
      { request with id := id } := by
  cases id with
  | none =>
    obtain ⟨jsonrpc, _, method, params⟩ := request
    obtain rfl : _ = none := read
    rfl
  | some id => rfl

variable {handle : JsonRpcHandler ν σ}

theorem handled_element (answers : AnswersRequests handle) (state : σ)
    {fields : List (String × JsonValue ν)} {request : JsonRpcRequest ν}
    (made : MakesRequest (.object fields) request) :
    Element handle state (.object fields) (handle state request).1
      (answerOf texts request.id.isSome (request.id.getD .null) (handle state request).2) := by
  cases given : (handle state request).2 with
  | ok response =>
    refine .request made (answers _ _ _ given) ?_ ?_
    · intro answer there
      exact Except.ok.inj (given.symm.trans there)
    · intro message there
      cases given.symm.trans there
  | error message =>
    rw [answerOf]
    refine .request made ?_ ?_ ?_
    · cases request.id <;> rfl
    · intro answer there
      cases given.symm.trans there
    · intro _ _ answer mem
      split at mem
      · exact Option.some.inj mem ▸ jsonRpcError_isError texts _ _ _
      · cases mem

theorem dispatchOne_object (answers : AnswersRequests handle) (state : σ)
    (fields : List (String × JsonValue ν)) :
    Element handle state (.object fields)
      (dispatchOneJsonRpcValue texts handle state (.object fields)).1
      (dispatchOneJsonRpcValue texts handle state (.object fields)).2 := by
  have getId : (JsonValue.object fields).get "id" = fields.lookup "id" := rfl
  have getParams : (JsonValue.object fields).get "params" = fields.lookup "params" := rfl
  rw [dispatchOneJsonRpcValue, getId, getParams]
  split
  next badId =>
    rw [Bool.and_eq_true] at badId
    refine .refused ?_ ?_ (jsonRpcError_isError texts _ _ _)
    · rintro _ ⟨-, -, id, -⟩
      obtain ⟨given, found⟩ := Option.isSome_iff_exists.mp badId.1
      rw [found, Option.getD_some, id given found] at badId
      exact absurd badId.2 (by decide)
    · rintro ⟨absent, -⟩
      rw [getId] at absent
      rw [absent] at badId
      cases badId.1
  next goodId =>
    split
    next badParams =>
      obtain ⟨params, found, unstructured⟩ := (Option.any_eq_true _ _).mp badParams
      have unmade : ∀ request, ¬MakesRequest (.object fields) request := by
        rintro _ ⟨-, -, -, params'⟩
        rw [params' params found] at unstructured
        cases unstructured
      split
      next hasId =>
        refine .refused unmade ?_ (jsonRpcError_isError texts _ _ _)
        rintro ⟨absent, -⟩
        rw [getId] at absent
        rw [absent] at hasId
        cases hasId
      next noId =>
        refine .badNotification unmade ⟨?_, params, found, by simpa using unstructured⟩
        exact Option.not_isSome_iff_eq_none.mp noId
    next goodParams =>
      have id : ∀ id, fields.lookup "id" = some id → isJsonRpcId id = true := by
        intro id found
        rw [found] at goodId
        simpa using goodId
      have params : ∀ params, fields.lookup "params" = some params →
          isStructured params = true := by
        intro params found
        rw [found] at goodParams
        simpa using goodParams
      rcases @fromValue_object _ texts _ id params with
        ⟨request, read, made, requestId⟩ | ⟨unmade, message, read⟩
      · rw [read]
        dsimp only
        rw [requestId_eq requestId]
        exact handled_element answers state made
      · rw [read]
        refine .refused unmade ?_ (jsonRpcError_isError texts _ _ _)
        rintro ⟨-, params', found, unstructured⟩
        rw [params params' found] at unstructured
        cases unstructured

theorem dispatchOne_plain (state : σ) {value : JsonValue ν} (noObject : value.isObject = false)
    (read : fromValue texts value = .error (texts.refused value)) :
    Element handle state value (dispatchOneJsonRpcValue texts handle state value).1
      (dispatchOneJsonRpcValue texts handle state value).2 := by
  have unmade : ∀ request, ¬MakesRequest value request := by
    rintro _ ⟨-, -, -, -⟩
    cases noObject
  have nothing : ∀ name, value.get name = none := by
    cases value with
    | object => cases noObject
    | _ => exact fun _ => rfl
  have wanted : ¬BadNotification value := by
    rintro ⟨-, params, found, -⟩
    rw [nothing] at found
    cases found
  rw [dispatchOneJsonRpcValue, nothing, nothing, read]
  exact .refused unmade wanted (jsonRpcError_isError texts _ _ _)

theorem dispatchOne_element (answers : AnswersRequests handle) (state : σ) (value : JsonValue ν) :
    Element handle state value (dispatchOneJsonRpcValue texts handle state value).1
      (dispatchOneJsonRpcValue texts handle state value).2 := by
  cases value with
  | object fields => exact dispatchOne_object answers state fields
  | array items =>
    rcases @fromValue_array _ texts items with positional | read
    · exact .positional positional
    · exact dispatchOne_plain state rfl read
  | _ => exact dispatchOne_plain state rfl rfl

theorem dispatchItems_elements (answers : AnswersRequests handle) (state : σ)
    (items : List (JsonValue ν)) :
    ∃ responses, Elements handle state items (dispatchJsonRpcItems texts handle state items).1
      responses ∧ (dispatchJsonRpcItems texts handle state items).2 = responses.reduceOption := by
  induction items generalizing state with
  | nil => exact ⟨[], .done, rfl⟩
  | cons item items ih =>
    have element := @dispatchOne_element _ _ texts _ answers state item
    obtain ⟨responses, rest, sent⟩ :=
      ih (dispatchOneJsonRpcValue texts handle state item).1
    refine ⟨_, .next element rest, ?_⟩
    rw [dispatchJsonRpcItems]
    dsimp only
    rw [sent]
    cases (dispatchOneJsonRpcValue texts handle state item).2 <;> rfl

/-- What is done with every message, and what is sent back. -/
theorem dispatchJsonRpcValue_dispatched (answers : AnswersRequests handle) (state : σ)
    (value : JsonValue ν) :
    Dispatched handle state value (dispatchJsonRpcValue texts handle state value).1
      (dispatchJsonRpcValue texts handle state value).2 := by
  cases value with
  | array items =>
    rw [dispatchJsonRpcValue]
    split
    next empty =>
      exact .badBatch (.inl (List.isEmpty_iff.mp empty)) (jsonRpcError_isError texts _ _ _)
    next filled =>
      split
      next long => exact .badBatch (.inr long) (jsonRpcError_isError texts _ _ _)
      next few =>
        obtain ⟨responses, elements, sent⟩ := @dispatchItems_elements _ _ texts _ answers state items
        dsimp only
        rw [sent]
        simp only [List.isEmpty_iff]
        exact .batch (fun absent => filled (List.isEmpty_iff.mpr absent)) (Nat.le_of_not_lt few) elements
  | _ => exact .single rfl (dispatchOne_element answers state _)

end Proofs

section Samples

def plainJsonTexts : JsonTexts Int where
  number := id
  refused _ := "invalid request"

/-- A bridge that counts its requests and knows `ping`. -/
def countingBridge : JsonRpcHandler Int Nat :=
  handleMcpRequest plainJsonTexts fun count method _ =>
    if method = "ping" then some (count + 1, .ok (.object [])) else none

def pingMessage (id : Int) : JsonValue Int :=
  .object [("id", .number id), ("jsonrpc", .string "2.0"), ("method", .string "ping")]

/-- Between two requests a nested batch, a number, a notification and one with a bare parameter. -/
def mixedBatch : JsonValue Int :=
  .array [pingMessage 7, .array [pingMessage 8], .number 5,
    .object [("jsonrpc", .string "2.0"), ("method", .string "ping")],
    .object [("jsonrpc", .string "2.0"), ("method", .string "ping"), ("params", .bool true)],
    pingMessage 9]

/-- The first request, the two refusals and the last request are answered, in this order. -/
theorem mixed_batch_dispatched :
    let pong (id : Int) : JsonRpcResponse Int :=
      { id := .number id, result := some (.object []), error := none }
    let refusal := jsonRpcError plainJsonTexts .null (-32600) "invalid request"
    Dispatched countingBridge 0 mixedBatch 3
      (some (.array ([pong 7, refusal, refusal, pong 9].map JsonRpcResponse.toValue))) :=
  dispatchJsonRpcValue_dispatched (handleMcpRequest_answers plainJsonTexts _) 0 mixedBatch

/-- A request without a version is refused, and an array in a batch is taken for a request. -/
theorem versionless_and_positional_requests :
    dispatchJsonRpcValue plainJsonTexts countingBridge 0
        (.object [("id", .number 7), ("method", .string "ping")]) =
      (0, some (jsonRpcError plainJsonTexts (.number 7) (-32600) "invalid request").toValue) ∧
    (dispatchJsonRpcValue plainJsonTexts countingBridge 0
        (.array [.array [.string "2.0", .bool true, .string "ping", .number 5]])).1 = 1 :=
  ⟨rfl, rfl⟩

end Samples

end PortMate
