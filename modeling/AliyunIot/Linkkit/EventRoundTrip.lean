import AliyunIot.Dm.EventText
import AliyunIot.Linkkit.EventCallback

/-!
# Round trips of event messages

`CloudMessage` is a message of the cloud that becomes an event, and `RoundTrips` what the user
is owed: the same ids and params, or one reply. `roundTrips_iff`: a message that the parsers
accept round-trips exactly where it `Holds`.
-/

namespace AliyunIot.Linkkit

open Lib Lib.Json Cjson Format AliyunIot.Dm

/-- The build, the C library, the message cache, and what the calls on the way give. -/
structure EventEnv where
  logReport : Bool
  strtod : Strtod
  atoi : Atoi
  cache : DmMsgCache
  io : ComposeIo
  user : UserIo

/-- A message of the cloud, as its function gets it: the device it is for, its topic, and what the
parsers made of it. `rest` is the byte that a permit's memory ends with. -/
inductive CloudMessage where
  | propertySet (devid : Int) (request : DmMsgRequestPayload)
  | propertyGet (devid : Int) (request : DmMsgRequestPayload) (ctx : Pointer)
  | serviceRequest (devid : Int) (identifier : CStr) (request : DmMsgRequestPayload)
      (ctx : Pointer)
  | rrpcRequest (devid : Int) (rrpcid : CStr) (request : DmMsgRequestPayload)
  | propertyPostReply (response : DmMsgResponsePayload)
  | eventPostReply (identifier : CStr) (identifierLen : Nat) (response : DmMsgResponsePayload)
  | gatewayPermit (payload : List UInt8) (rest : UInt8)

variable {env : EventEnv}

def EventEnv.compose (env : EventEnv) : CloudMessage → Int × Option EventMessage
  | .propertySet devid request => dmMsgPropertySet env.logReport env.io devid request
  | .propertyGet devid request ctx => dmMsgPropertyGet env.io devid request ctx
  | .serviceRequest devid identifier request ctx =>
    dmMsgThingServiceRequest env.logReport env.io (some devid) identifier request ctx
  | .rrpcRequest devid rrpcid request => dmMsgRrpcRequest env.io (some devid) rrpcid request
  | .propertyPostReply response =>
    dmMsgThingEventPropertyPostReply env.atoi env.io env.cache response
  | .eventPostReply identifier identifierLen response =>
    dmMsgThingEventPostReply env.atoi env.io env.cache identifier identifierLen response
  | .gatewayPermit payload rest => dmMsgThingGatewayPermit env.strtod env.io payload rest

/-! ## What is asked -/

/-- Neither a quote nor a backslash. -/
def Unquoted (s : List UInt8) : Prop := (34 : UInt8) ∉ s ∧ (92 : UInt8) ∉ s

instance (s : List UInt8) : Decidable (Unquoted s) := inferInstanceAs (Decidable (_ ∧ _))

/-- The parser accepts the request, its ids are plain and its params are of the type. -/
def EventEnv.Requested (env : EventEnv) (request : DmMsgRequestPayload) (type : CjsonType) : Prop :=
  (∃ payload, dmMsgRequestParse env.strtod payload = some request) ∧
    Unquoted request.id.value ∧ Unquoted request.method.value ∧ request.params.type = type

/-- The parser accepts the response, and its id is in the message cache, for a device. -/
def EventEnv.Awaited (env : EventEnv) (response : DmMsgResponsePayload) (devid : Int) : Prop :=
  (∃ payload, dmMsgResponseParse env.strtod payload = some response) ∧ IsInt devid ∧
    ∃ node, dmMsgCacheSearch env.cache (responseId env.atoi response) =
      (State.success, some node) ∧ node.devid = devid

def UserIo.Serves (io : UserIo) : Prop :=
  io.registered .serviceRequest = true ∨
    io.registered .serviceRequestExt = true ∧ io.listed = true

/-- The permit is an object whose time is a number; the callback takes no other. -/
def EventEnv.Permits (env : EventEnv) (payload : List UInt8) : Prop :=
  ∃ d, document env.strtod payload = some (.object, d) ∧
    (itemsOf d (text "time")).type = .number

/-- The messages that are to round-trip: the parsers accept them, and the user listens. -/
def EventEnv.Accepted (env : EventEnv) : CloudMessage → Prop
  | .propertySet devid request =>
    env.Requested request .object ∧ IsInt devid ∧ env.user.registered .propertySet = true
  | .propertyGet devid request ctx =>
    env.Requested request .array ∧ IsInt devid ∧ ctx.length = sizeofUintptr ∧
      env.user.registered .propertyGet = true
  | .serviceRequest devid identifier request ctx =>
    env.Requested request .object ∧ IsInt devid ∧ ctx.length = sizeofUintptr ∧
      Unquoted identifier.val ∧ env.user.Serves
  | .rrpcRequest devid _ request =>
    env.Requested request .object ∧ IsInt devid ∧ env.user.Serves
  | .propertyPostReply response =>
    (∃ devid, env.Awaited response devid) ∧ env.user.registered .reportReply = true
  | .eventPostReply _ _ response =>
    (∃ devid, env.Awaited response devid) ∧ env.user.registered .triggerEventReply = true
  | .gatewayPermit payload _ =>
    payload ≠ [] ∧ env.Permits payload ∧ env.user.registered .permitJoin = true

def EventEnv.Owed (env : EventEnv) : CloudMessage → List UserCall → Prop
  | .propertySet devid request, calls =>
    calls = env.user.call (.propertySet devid request.params.value)
  | .propertyGet devid request ctx, calls =>
    calls = env.user.call
      (.propertyGet devid request.params.value request.id.value (.ctx ctx))
  | .serviceRequest devid identifier request ctx, calls =>
    calls = env.user.serve devid identifier.val request.params.value request.id.value (.ctx ctx)
  | .rrpcRequest devid rrpcid request, calls =>
    ∃ serviceid, rrpcServiceid request.method.value = some serviceid ∧
      calls = env.user.serve devid serviceid request.params.value request.id.value
        (.rrpc rrpcid.val)
  | .propertyPostReply response, calls =>
    ∃ devid payload, env.Awaited response devid ∧
      calls = [.reportReply devid (responseId env.atoi response) response.code.valueInt payload]
  | .eventPostReply _ _ response, calls =>
    ∃ devid eventid payload, env.Awaited response devid ∧
      calls = [.triggerEventReply devid (responseId env.atoi response) response.code.valueInt
        eventid payload]
  | .gatewayPermit payload _, calls =>
    ∃ d, document env.strtod payload = some (.object, d) ∧
      calls = env.user.call (.permitJoin
        (if (itemsOf d (text "productKey")).type = .string then
          (itemsOf d (text "productKey")).value else [])
        (itemsOf d (text "time")).valueInt)

/-- The message is composed, its memory holds the whole text and ends it with a zero, and the
event callback makes the calls that are owed. -/
def EventEnv.RoundTrips (env : EventEnv) (m : CloudMessage) : Prop :=
  ∃ e, (env.compose m).2 = some e ∧ cString e.buffer = some e.whole ∧
    ∃ calls, iotxLinkkitEventCallback env.strtod env.user e.type e.whole = some calls ∧
      env.Owed m calls

/-! ## Where it holds -/

/-- A slice is a value of the type by itself, without a zero. -/
def Embeds (strtod : Strtod) (type : CjsonType) (p : List UInt8) : Prop :=
  (0 : UInt8) ∉ p ∧ ∃ k, IsValue (lexis strtod) 999 k p ∧ (item strtod k p).type = type

/-- The memory is there, and the queue takes the event. -/
def EventEnv.Sends (env : EventEnv) : Prop := env.io.malloc = true ∧ env.io.sent = true

def msgidText (id : List UInt8) : List UInt8 :=
  123 :: (quote (text "msgid") ++ 58 :: (precision id ++ [125]))

def payloadObject (payload : List UInt8) : List UInt8 :=
  123 :: payloadText (precision payload) [125]

/-- `{"eventid":"eventid","payload":"message"}`, both up to a zero. -/
def eventObject (eventid message : List UInt8) : List UInt8 :=
  123 :: ((stringMember (text "eventid") (precision eventid)).bytes ++
    44 :: ((stringMember (text "payload") (precision message)).bytes ++ [125]))

/-- `{"payload":slice}` is read as an object, and the memory for the user's payload is there where
the slice is read as one. -/
def EventEnv.Reads (env : EventEnv) (slice : List UInt8) : Prop :=
  ∃ d, document env.strtod (payloadObject slice) = some (.object, d) ∧
    (hasUserPayload (itemsOf d (text "payload")) = true → env.user.malloc = true)

def EventEnv.Holds (env : EventEnv) : CloudMessage → Prop
  | .propertySet devid request =>
    env.Sends ∧ env.user.malloc = true ∧ Embeds env.strtod .object request.params.value ∧
      (env.logReport = true →
        (decimal devid).length + (precision request.id.value).length ≤ 20 ∧
          (liteCjsonParse env.strtod (msgidText request.id.value)).isSome)
  | .propertyGet _ request _ =>
    env.Sends ∧ env.user.malloc = true ∧ Embeds env.strtod .array request.params.value ∧
      (0 : UInt8) ∉ request.id.value
  | .serviceRequest _ identifier request _ =>
    env.Sends ∧ env.user.malloc = true ∧ Embeds env.strtod .object request.params.value ∧
      (0 : UInt8) ∉ request.id.value ∧ ¬ (env.logReport = true ∧ isProfilerSwitch identifier = true)
  | .rrpcRequest _ rrpcid request =>
    env.Sends ∧ env.user.malloc = true ∧ Embeds env.strtod .object request.params.value ∧
      (0 : UInt8) ∉ request.id.value ∧ Cjson.isBody rrpcid.val = true ∧
      ∃ serviceid, rrpcServiceid request.method.value = some serviceid ∧ (0 : UInt8) ∉ serviceid
  | .propertyPostReply response =>
    env.Sends ∧ response.id.value.length ≤ uint32Strlen ∧
      if response.message.value = text "success" then env.Reads response.data.value
      else if response.message.type = .string then (0 : UInt8) ∉ response.message.value
      else env.Reads response.message.value
  | .eventPostReply identifier identifierLen response =>
    env.Sends ∧ env.user.malloc = true ∧ response.id.value.length ≤ uint32Strlen ∧
      ∃ d, document env.strtod (eventObject (identifier.val.take identifierLen)
          response.message.value) = some (.object, d) ∧
        (itemsOf d (text "eventid")).type = .string ∧ (itemsOf d (text "payload")).type = .string
  | .gatewayPermit payload rest =>
    env.Sends ∧ rest = 0 ∧ (0 : UInt8) ∉ payload ∧
      ∀ d, document env.strtod payload = some (.object, d) →
        (itemsOf d (text "productKey")).type = .string → env.user.malloc = true

/-! ## Texts and calls -/

variable {strtod : Strtod} {user : UserIo} {type : EventType} {s p : List UInt8}
  {d : List UInt8 → Option LiteCjson} {items : Items}

section Calls

theorem itemsOf_told (m : Member) (key : List UInt8) :
    itemsOf (told strtod m d) key =
      if key = m.key then item strtod m.value.kind m.value.text else itemsOf d key := by
  unfold itemsOf told
  split <;> rfl

theorem item_of_type {key : List UInt8} (h : (itemsOf d key).type ≠ .invalid) :
    d key = some (itemsOf d key) := by
  unfold itemsOf at h ⊢
  cases hd : d key with
  | none =>
    rw [hd] at h
    exact absurd rfl h
  | some it => rfl

theorem called_iff (hs : s.head? = some 34) {owed : List UserCall → Prop} (hnil : ¬ owed []) :
    (∃ calls, iotxLinkkitEventCallback strtod user type (123 :: s) = some calls ∧ owed calls) ↔
      ∃ d, document strtod (123 :: s) = some (.object, d) ∧
        owed (onEvent user (itemsOf d) type) := by
  rw [eventCallback_eq]
  constructor
  · rintro ⟨calls, hcalls, howed⟩
    cases hd : document strtod (123 :: s) with
    | none =>
      rw [hd] at hcalls
      cases hcalls
      exact absurd howed hnil
    | some r =>
      obtain ⟨ty, d⟩ := r
      obtain rfl := type_of_document hs hd
      rw [hd] at hcalls
      cases hcalls
      exact ⟨d, rfl, howed⟩
  · rintro ⟨d, hd, howed⟩
    rw [hd]
    exact ⟨_, rfl, howed⟩

theorem exists_and_swap {α : Type} {a c : α → Prop} {b : Prop} :
    (∃ x, a x ∧ b ∧ c x) ↔ b ∧ ∃ x, a x ∧ c x :=
  ⟨fun ⟨x, ha, hb, hc⟩ => ⟨hb, x, ha, hc⟩, fun ⟨hb, x, ha, hc⟩ => ⟨x, ha, hb, hc⟩⟩

theorem formatted_iff {len : Nat} {fmt : List UInt8} {args : List Arg}
    {owed : List UserCall → Prop} (h0 : (0 : UInt8) ∉ format fmt args) :
    (∃ e, (sendFormatted env.io type len fmt args).2 = some e ∧ cString e.buffer = some e.whole ∧
      ∃ calls, iotxLinkkitEventCallback env.strtod env.user e.type e.whole = some calls ∧
        owed calls) ↔
      env.Sends ∧ (format fmt args).length < len ∧
        ∃ calls, iotxLinkkitEventCallback env.strtod env.user type (format fmt args) =
          some calls ∧ owed calls := by
  constructor
  · rintro ⟨e, he, hwhole, hcalls⟩
    obtain ⟨hsends, rfl⟩ := sendFormatted_eq.mp he
    exact ⟨hsends, (cString_cleared h0).mp hwhole, hcalls⟩
  · rintro ⟨hsends, hlen, hcalls⟩
    exact ⟨_, sendFormatted_eq.mpr ⟨hsends, rfl⟩, (cString_cleared h0).mpr hlen, hcalls⟩

theorem call_of_registered {c : UserCall} (h : user.registered c.ite = true) : user.call c = [c] :=
  if_pos h

theorem call_of_not_registered {c : UserCall} (h : ¬ user.registered c.ite = true) :
    user.call c = [] :=
  if_neg h

theorem serve_inj (h : user.Serves) {devid devid' : Int}
    {sid sid' request request' id id' : List UInt8} {answer answer' : AnswerTo} :
    user.serve devid sid request id answer = user.serve devid' sid' request' id' answer' ↔
      devid = devid' ∧ sid = sid' ∧ request = request' ∧ id = id' ∧ answer = answer' := by
  refine ⟨fun heq => ?_, ?_⟩
  · simp only [UserIo.serve, UserIo.call, UserCall.ite] at heq
    cases hreg : user.registered .serviceRequest with
    | true =>
      simp only [hreg, if_true, List.singleton_append, List.cons.injEq,
        UserCall.serviceRequest.injEq] at heq
      exact heq.1
    | false =>
      obtain ⟨hext, hlisted⟩ := h.resolve_left (by simp [hreg])
      simp only [hreg, hext, hlisted, Bool.false_eq_true, if_false, if_true, List.nil_append,
        List.cons.injEq, UserCall.serviceRequestExt.injEq, and_true] at heq
      obtain ⟨h₁, h₂, h₃, h₄, h₅⟩ := heq
      exact ⟨h₁, h₂, h₄, h₃, h₅⟩
  · rintro ⟨rfl, rfl, rfl, rfl, rfl⟩
    rfl

theorem serve_ne_nil (h : user.Serves) {devid : Int} {sid request id : List UInt8}
    {answer : AnswerTo} : user.serve devid sid request id answer ≠ [] := by
  simp only [UserIo.serve, UserIo.call, UserCall.ite]
  rcases h with h | ⟨h, h'⟩
  · simp [h]
  · simp [h, h']

end Calls

/-! ## Slices -/

section Slices

theorem payload_ne : text "payload" ≠ [] ∧ Cjson.isBody (text "payload") = true := by decide

theorem zero_not_mem_payloadText {x : List UInt8} (hx : (0 : UInt8) ∉ x) :
    (0 : UInt8) ∉ payloadText (precision p) x := by
  have hkey : (0 : UInt8) ∉ quote (text "payload") := by decide
  have hp := zero_not_mem_precision (s := p)
  simp [payloadText, hkey, hp, hx]

variable {ty : CjsonType}

theorem embeds_of_document {x : List UInt8} (hne : x ≠ []) (hx : (0 : UInt8) ∉ x)
    (hty : ty = .object ∨ ty = .array)
    (hd : document strtod (123 :: payloadText (precision p) x) = some (.object, d))
    (htype : (itemsOf d (text "payload")).type = ty)
    (hvalue : (itemsOf d (text "payload")).value = p) : Embeds strtod ty p := by
  have hc : IsContainer (itemsOf d (text "payload")) := by
    rw [IsContainer, htype]
    exact hty
  have hit : d (text "payload") = some (itemsOf d (text "payload")) := by
    apply item_of_type
    rw [htype]
    rcases hty with rfl | rfl <;> decide
  have hzero : (0 : UInt8) ∉ p := by
    have hmem := mem_of_document (by rfl) hd payload_ne.1 hit hc
    rw [hvalue] at hmem
    exact fun h0 => zero_not_mem_payloadText hx (hmem 0 h0)
  rw [precision_eq_self hzero] at hd
  obtain ⟨k, hk, hitem⟩ := isValue_of_document payload_ne.2 payload_ne.1 hne hd hit hvalue hc
  exact ⟨hzero, k, hk, by rw [← hitem, htype]⟩

theorem payloadText_eq {k : Kind} {x : List UInt8} (h0 : (0 : UInt8) ∉ p) :
    payloadText (precision p) x = (valueMember (text "payload") k p).bytes ++ x := by
  rw [valueMember_append, precision_eq_self h0, payloadText]

theorem value_of_embeds (hty : ty = .object ∨ ty = .array) {k : Kind}
    (h : (item strtod k p).type = ty) : (item strtod k p).value = p := by
  apply value_of_item
  rw [IsContainer, h]
  exact hty

theorem payload_iff (hty : ty = .object ∨ ty = .array) :
    (∃ d, document strtod (123 :: payloadText (precision p) [125]) = some (.object, d) ∧
      (itemsOf d (text "payload")).type = ty ∧ (itemsOf d (text "payload")).value = p) ↔
      Embeds strtod ty p := by
  constructor
  · rintro ⟨d, hd, htype, hvalue⟩
    exact embeds_of_document (List.cons_ne_nil _ _) (by decide) hty hd htype hvalue
  · rintro ⟨h0, k, hk, htype⟩
    rw [payloadText_eq h0, exists_document_last (valueMember_ok hk payload_ne.2) rfl payload_ne.1]
    simp only [itemsOf_told, valueMember, if_true]
    exact ⟨htype, value_of_embeds hty htype⟩

/-- Whether a slice is a value by itself shows where it is parsed as a payload. -/
def decidableEmbeds {ty : CjsonType} (hty : ty = .object ∨ ty = .array) (p : List UInt8) :
    Decidable (Embeds strtod ty p) :=
  decidable_of_iff ((document strtod (payloadObject p)).any fun (r : CjsonType × _) =>
      r.1 = .object ∧ (itemsOf r.2 (text "payload")).type = ty ∧
        (itemsOf r.2 (text "payload")).value = p) <| by
    rw [← payload_iff hty, payloadObject]
    simp only [Option.any_eq_true, decide_eq_true_eq, Prod.exists]
    constructor
    · rintro ⟨type, d, hd, rfl, h⟩
      exact ⟨d, hd, h⟩
    · rintro ⟨d, hd, h⟩
      exact ⟨_, d, hd, rfl, h⟩

instance : Decidable (Embeds strtod .object p) := decidableEmbeds (.inl rfl) p

instance : Decidable (Embeds strtod .array p) := decidableEmbeds (.inr rfl) p

theorem isBody_hex (ctx : Pointer) : Cjson.isBody (infraHex2str ctx) = true :=
  isBody_of_unquoted (fun h => (plain_infraHex2str h).2.1 rfl)
    (fun h => (plain_infraHex2str h).2.2 rfl)

theorem zero_not_mem_hex (ctx : Pointer) : (0 : UInt8) ∉ infraHex2str ctx :=
  fun h => (plain_infraHex2str h).1 rfl

theorem zero_not_mem_ctxText (ctx : Pointer) : (0 : UInt8) ∉ 44 :: ctxText (infraHex2str ctx) := by
  have hkey : (0 : UInt8) ∉ quote (text "ctx") := by decide
  have hhex := zero_not_mem_hex ctx
  rw [ctxText, stringMember_append]
  simp [hkey, hhex]

theorem payload_ctx_iff (hty : ty = .object ∨ ty = .array) {ctx : Pointer}
    (hlen : ctx.length = sizeofUintptr) :
    (∃ d, document strtod (123 :: payloadText (precision p) (44 :: ctxText (infraHex2str ctx))) =
        some (.object, d) ∧
      (itemsOf d (text "payload")).type = ty ∧ (itemsOf d (text "payload")).value = p ∧
      ctxPointer (itemsOf d (text "ctx")) = ctx) ↔ Embeds strtod ty p := by
  constructor
  · rintro ⟨d, hd, htype, hvalue, -⟩
    exact embeds_of_document (List.cons_ne_nil _ _) (zero_not_mem_ctxText ctx) hty hd htype hvalue
  · rintro ⟨h0, k, hk, htype⟩
    have hctx : text "ctx" ≠ [] ∧ Cjson.isBody (text "ctx") = true := by decide
    have hnull : nullPointer.length = ctx.length := by rw [hlen, nullPointer, List.length_replicate]
    rw [payloadText_eq h0, exists_document_cons (valueMember_ok hk payload_ne.2) rfl payload_ne.1
      (by rfl), ctxText, exists_document_last (stringMember_ok (isBody_hex ctx) hctx.2) rfl
      hctx.1]
    simp only [itemsOf_told, valueMember, stringMember, if_true]
    refine ⟨htype, value_of_embeds hty htype, ?_⟩
    rw [if_neg (by decide), item_quote, ctxPointer, keyItem,
      liteHexstrConvert_infraHex2str hnull]

theorem payload_msgid_iff (hty : ty = .object ∨ ty = .array) (id : List UInt8) :
    (∃ d, document strtod (123 :: payloadText (precision p)
        (44 :: (quote (text "msgid") ++ 58 :: (precision id ++ [125])))) = some (.object, d) ∧
      (itemsOf d (text "payload")).type = ty ∧ (itemsOf d (text "payload")).value = p) ↔
      Embeds strtod ty p ∧ (liteCjsonParse strtod (msgidText id)).isSome := by
  have hx : (0 : UInt8) ∉ 44 :: (quote (text "msgid") ++ 58 :: (precision id ++ [125])) := by
    have hkey : (0 : UInt8) ∉ quote (text "msgid") := by decide
    have hid := zero_not_mem_precision (s := id)
    simp [hkey, hid]
  have hcons : ∀ k, IsValue (lexis strtod) 999 k p → (0 : UInt8) ∉ p →
      ∀ q : (List UInt8 → Option LiteCjson) → Prop,
      (∃ d, document strtod (123 :: payloadText (precision p)
        (44 :: (quote (text "msgid") ++ 58 :: (precision id ++ [125])))) =
          some (.object, d) ∧ q d) ↔
      ∃ d, document strtod (msgidText id) = some (.object, d) ∧
        q (told strtod (valueMember (text "payload") k p) d) := by
    intro k hk h0 q
    rw [payloadText_eq h0]
    exact exists_document_cons (valueMember_ok hk payload_ne.2) rfl payload_ne.1 rfl
  constructor
  · rintro ⟨d, hd, htype, hvalue⟩
    have hembeds := embeds_of_document (List.cons_ne_nil _ _) hx hty hd htype hvalue
    refine ⟨hembeds, ?_⟩
    obtain ⟨h0, k, hk, -⟩ := hembeds
    obtain ⟨d', hd', -⟩ := (hcons k hk h0 fun _ => True).mp ⟨d, hd, trivial⟩
    rw [document] at hd'
    obtain ⟨lite, hlite, -⟩ := Option.map_eq_some_iff.mp hd'
    rw [hlite]
    rfl
  · rintro ⟨⟨h0, k, hk, htype⟩, hsome⟩
    obtain ⟨lite, hlite⟩ := Option.isSome_iff_exists.mp hsome
    have hd : document strtod (msgidText id) =
        some (lite.type, liteCjsonObjectItem strtod lite) := by rw [document, hlite]; rfl
    have hobject := type_of_document (by rfl) hd
    rw [hobject] at hd
    rw [hcons k hk h0]
    refine ⟨_, hd, ?_⟩
    simp only [itemsOf_told, valueMember, if_true]
    exact ⟨htype, value_of_embeds hty htype⟩

end Slices

/-! ## The events -/

section Events

variable {devid : Int} {t : List UInt8} {n : Nat}

theorem onPropertySet_iff (hreg : user.registered .propertySet = true)
    (hdevid : items (text "devid") = ⟨.number, t, n, devid⟩) :
    onPropertySet user items = user.call (.propertySet devid p) ↔
      user.malloc = true ∧ (items (text "payload")).type = .object ∧
        (items (text "payload")).value = p := by
  have hcall : ∀ q, user.call (.propertySet devid q) = [.propertySet devid q] :=
    fun q => call_of_registered hreg
  simp only [onPropertySet, hdevid, hcall]
  by_cases htype : (items (text "payload")).type = .object
  · cases user.malloc <;> simp [htype]
  · simp [htype]

theorem onPropertyGet_iff (hreg : user.registered .propertyGet = true)
    (hdevid : items (text "devid") = ⟨.number, t, n, devid⟩) {id id' : List UInt8}
    (hid : items (text "id") = keyItem id) {ctx : Pointer} :
    onPropertyGet user items = user.call (.propertyGet devid p id' (.ctx ctx)) ↔
      (user.malloc = true ∧ id = id') ∧ (items (text "payload")).type = .array ∧
        (items (text "payload")).value = p ∧ ctxPointer (items (text "ctx")) = ctx := by
  have hcall : ∀ q i c, user.call (.propertyGet devid q i c) = [.propertyGet devid q i c] :=
    fun q i c => call_of_registered hreg
  simp only [onPropertyGet, hdevid, hid, keyItem, hcall]
  by_cases htype : (items (text "payload")).type = .array
  · cases user.malloc <;> simp [htype]
    tauto
  · simp [htype]

theorem onServiceRequest_iff (hserves : user.Serves)
    (hdevid : items (text "devid") = ⟨.number, t, n, devid⟩) {id id' sid sid' : List UInt8}
    (hid : items (text "id") = keyItem id) (hsid : items (text "serviceid") = keyItem sid)
    {ctx : Pointer} :
    onServiceRequest user items = user.serve devid sid' p id' (.ctx ctx) ↔
      (user.malloc = true ∧ id = id' ∧ sid = sid') ∧ (items (text "payload")).type = .object ∧
        (items (text "payload")).value = p ∧ ctxPointer (items (text "ctx")) = ctx := by
  have hnil : ∀ sid q i a, [] ≠ user.serve devid sid q i a :=
    fun sid q i a => (serve_ne_nil hserves).symm
  simp only [onServiceRequest, hdevid, hid, hsid, keyItem]
  by_cases htype : (items (text "payload")).type = .object
  · cases user.malloc
    · simp [htype, hnil]
    · simp [htype, serve_inj hserves]
      tauto
  · simp [htype, hnil]

theorem onRrpcRequest_iff (hserves : user.Serves)
    (hdevid : items (text "devid") = ⟨.number, t, n, devid⟩) {id id' sid sid' q : List UInt8}
    (hid : items (text "id") = keyItem id) (hsid : items (text "serviceid") = keyItem sid) :
    onRrpcRequest user items = user.serve devid sid' p id' (.rrpc q) ↔
      (user.malloc = true ∧ id = id' ∧ sid = sid') ∧ ((items (text "rrpcid")).type = .string ∧
        (items (text "rrpcid")).value = q) ∧ (items (text "payload")).type = .object ∧
        (items (text "payload")).value = p := by
  have hnil : ∀ sid q i a, [] ≠ user.serve devid sid q i a :=
    fun sid q i a => (serve_ne_nil hserves).symm
  simp only [onRrpcRequest, hdevid, hid, hsid, keyItem]
  by_cases hrrpc : (items (text "rrpcid")).type = .string
  · by_cases htype : (items (text "payload")).type = .object
    · cases user.malloc
      · simp [htype, hrrpc, hnil]
      · simp [htype, hrrpc, serve_inj hserves]
        tauto
    · simp [htype, hnil]
  · simp [hrrpc, hnil]

theorem onPropertyPostReply_iff (hreg : user.registered .reportReply = true) {id code : Int}
    {t' t'' : List UInt8} (hid : items (text "id") = ⟨.number, t, n, id⟩)
    (hcode : items (text "code") = ⟨.number, t', n, code⟩)
    (hdevid : items (text "devid") = ⟨.number, t'', n, devid⟩) {devid' : Int} :
    (∃ payload, onPropertyPostReply user items = [.reportReply devid' id code payload]) ↔
      devid = devid' ∧
        (hasUserPayload (items (text "payload")) = true → user.malloc = true) := by
  have hcall : ∀ q, user.call (.reportReply devid id code q) = [.reportReply devid id code q] :=
    fun q => call_of_registered hreg
  simp only [onPropertyPostReply, hid, hcode, hdevid, hcall]
  cases hasUserPayload (items (text "payload"))
  · simp
  · cases user.malloc <;> simp

theorem onEventPostReply_iff (hreg : user.registered .triggerEventReply = true) {id code : Int}
    {t' t'' : List UInt8} (hid : items (text "id") = ⟨.number, t, n, id⟩)
    (hcode : items (text "code") = ⟨.number, t', n, code⟩)
    (hdevid : items (text "devid") = ⟨.number, t'', n, devid⟩) {devid' : Int} :
    (∃ eventid payload,
        onEventPostReply user items = [.triggerEventReply devid' id code eventid payload]) ↔
      (devid = devid' ∧ user.malloc = true) ∧ (items (text "eventid")).type = .string ∧
        (items (text "payload")).type = .string := by
  have hcall : ∀ e q, user.call (.triggerEventReply devid id code e q) =
      [.triggerEventReply devid id code e q] := fun e q => call_of_registered hreg
  simp only [onEventPostReply, hid, hcode, hdevid, hcall]
  by_cases hevent : (items (text "eventid")).type = .string
  · by_cases htype : (items (text "payload")).type = .string
    · cases user.malloc <;> simp [htype, hevent]
    · simp [htype]
  · simp [hevent]

end Events

/-! ## Each kind -/

section Kinds

variable {devid : Int} {request : DmMsgRequestPayload}

theorem length_decimal_int {i : Int} (hi : IsInt i) : (decimal i).length ≤ 11 := by
  obtain ⟨hlo, hhi⟩ := hi
  rw [intMin] at hlo
  rw [intMax] at hhi
  exact length_decimal_le (by decide) (by omega)

def IsKey (key : List UInt8) : Prop := key ≠ [] ∧ Cjson.isBody key = true

instance (key : List UInt8) : Decidable (IsKey key) := inferInstanceAs (Decidable (_ ∧ _))

variable {key : List UInt8}

theorem number_cons (hread : ReadsDecimals strtod) {i : Int} (hi : IsInt i) {rest : List UInt8}
    (hkey : IsKey key) (hrest : rest.head? = some 34)
    {owed : (List UInt8 → Option LiteCjson) → Prop} :
    (∃ d, document strtod (123 :: ((numberMember key i).bytes ++ 44 :: rest)) =
        some (.object, d) ∧ owed d) ↔
      ∃ d, document strtod (123 :: rest) = some (.object, d) ∧
        owed (told strtod (numberMember key i) d) :=
  exists_document_cons (numberMember_ok hread hi hkey.2) rfl hkey.1 hrest

theorem string_cons (hs : Cjson.isBody s = true) {rest : List UInt8} (hkey : IsKey key)
    (hrest : rest.head? = some 34) {owed : (List UInt8 → Option LiteCjson) → Prop} :
    (∃ d, document strtod (123 :: ((stringMember key s).bytes ++ 44 :: rest)) =
        some (.object, d) ∧ owed d) ↔
      ∃ d, document strtod (123 :: rest) = some (.object, d) ∧
        owed (told strtod (stringMember key s) d) :=
  exists_document_cons (stringMember_ok hs hkey.2) rfl hkey.1 hrest

theorem isBody_precision (h : Unquoted s) : Cjson.isBody (precision s) = true :=
  isBody_of_unquoted (fun hmem => h.1 (List.takeWhile_subset _ hmem))
    (fun hmem => h.2 (List.takeWhile_subset _ hmem))

theorem precision_eq_iff : precision s = s ↔ (0 : UInt8) ∉ s :=
  ⟨fun h => h ▸ zero_not_mem_precision, precision_eq_self⟩

theorem itemsOf_number (hread : ReadsDecimals strtod) {i : Int} (hi : IsInt i) :
    itemsOf (told strtod (numberMember key i) d) key = ⟨.number, decimal i, 0, i⟩ := by
  rw [itemsOf_told, numberMember, if_pos rfl, item_decimal hread hi]

theorem itemsOf_string {s : List UInt8} :
    itemsOf (told strtod (stringMember key s) d) key = keyItem s := by
  rw [itemsOf_told, stringMember, if_pos rfl, item_quote]

theorem itemsOf_other {m : Member} (h : key ≠ m.key) :
    itemsOf (told strtod m d) key = itemsOf d key := by
  rw [itemsOf_told, if_neg h]

theorem itemsOf_get (hread : ReadsDecimals strtod) (hdevid : IsInt devid)
    (h : items = itemsOf (told strtod (stringMember (text "id") s)
      (told strtod (numberMember (text "devid") devid) d))) :
    items (text "id") = keyItem s ∧
      items (text "devid") = ⟨.number, decimal devid, 0, devid⟩ ∧
      ∀ key, key ≠ text "id" → key ≠ text "devid" → items key = itemsOf d key := by
  subst h
  have hdevidKey : text "devid" ≠ text "id" := by decide
  refine ⟨itemsOf_string, (itemsOf_other hdevidKey).trans (itemsOf_number hread hdevid), ?_⟩
  intro key h₁ h₂
  rw [itemsOf_other h₁, itemsOf_other h₂]

theorem itemsOf_service (hread : ReadsDecimals strtod) (hdevid : IsInt devid)
    (h : items = itemsOf (told strtod (stringMember (text "id") s)
      (told strtod (numberMember (text "devid") devid)
        (told strtod (stringMember (text "serviceid") p) d)))) :
    items (text "id") = keyItem s ∧
      items (text "devid") = ⟨.number, decimal devid, 0, devid⟩ ∧
      items (text "serviceid") = keyItem p ∧
      ∀ key, key ≠ text "id" → key ≠ text "devid" → key ≠ text "serviceid" →
        items key = itemsOf d key := by
  obtain ⟨hid, hdevidItem, hother⟩ := itemsOf_get hread hdevid h
  refine ⟨hid, hdevidItem, (hother _ (by decide) (by decide)).trans itemsOf_string, ?_⟩
  intro key h₁ h₂ h₃
  rw [hother key h₁ h₂, itemsOf_other h₃]

theorem format_fits {fmt : List UInt8} {args : List Arg} {len : Nat}
    (hints : ∀ i, Arg.int i ∈ args → IsInt i)
    (hlen : fmt.length + (args.map Arg.size).sum < len) : (format fmt args).length < len :=
  Nat.lt_of_le_of_lt (length_format_le fmt fun i hi => length_decimal_int (hints i hi)) hlen

theorem propertySet_fits (hdevid : IsInt devid) :
    (format (dmMsgPropertySetFmt false) [.int devid, .slice p]).length <
      (dmMsgPropertySetFmt false).length + uint32Strlen + p.length + 1 := by
  apply format_fits
  · simp [hdevid]
  · simp only [List.map_cons, List.map_nil, List.sum_cons, List.sum_nil, Arg.size, uint32Strlen]
    omega

theorem propertySet_logReport_fits (h0 : (0 : UInt8) ∉ p) :
    (format (dmMsgPropertySetFmt true) [.int devid, .slice p, .slice s]).length <
        (dmMsgPropertySetFmt true).length + uint32Strlen + p.length + 1 ↔
      (decimal devid).length + (precision s).length ≤ 20 := by
  have hfmt : (dmMsgPropertySetFmt true).length = 40 := by decide
  have hdevid : (text "devid").length = 5 := by decide
  have hpayload : (text "payload").length = 7 := by decide
  have hmsgid : (text "msgid").length = 5 := by decide
  rw [format_propertySet_logReport, numberMember_append, payloadText, precision_eq_self h0, hfmt,
    uint32Strlen]
  simp only [List.length_cons, List.length_append, length_quote, hdevid, hpayload, hmsgid,
    List.length_nil]
  omega

theorem propertyGet_fits (ctx : Pointer) (hdevid : IsInt devid) :
    (format dmMsgThingPropertyGetFmt [.slice s, .int devid, .slice p,
      .str (infraHex2str ctx)]).length <
      dmMsgThingPropertyGetFmt.length + s.length + uint32Strlen + p.length +
        (infraHex2str ctx).length + 1 := by
  apply format_fits
  · simp [hdevid]
  · simp only [List.map_cons, List.map_nil, List.sum_cons, List.sum_nil, Arg.size, uint32Strlen]
    omega

theorem serviceRequest_fits (ctx : Pointer) (identifier : CStr) (hdevid : IsInt devid) :
    (format dmMsgServiceRequestFmt [.slice s, .int devid, .slice identifier.val, .slice p,
      .str (infraHex2str ctx)]).length <
      dmMsgServiceRequestFmt.length + s.length + uint32Strlen + identifier.strlen + p.length +
        (infraHex2str ctx).length + 1 := by
  apply format_fits
  · simp [hdevid]
  · simp only [List.map_cons, List.map_nil, List.sum_cons, List.sum_nil, Arg.size, uint32Strlen,
      CStr.strlen]
    omega

theorem onPropertySet_told (hread : ReadsDecimals env.strtod) (hdevid : IsInt devid)
    (hreg : env.user.registered .propertySet = true) :
    onPropertySet env.user (itemsOf (told env.strtod (numberMember (text "devid") devid) d)) =
        env.user.call (.propertySet devid p) ↔
      env.user.malloc = true ∧ (itemsOf d (text "payload")).type = .object ∧
        (itemsOf d (text "payload")).value = p := by
  have hkey : text "payload" ≠ text "devid" := by decide
  rw [onPropertySet_iff hreg (itemsOf_number hread hdevid)]
  simp only [itemsOf_other (m := numberMember (text "devid") devid) hkey]

theorem propertySet_iff (hread : ReadsDecimals env.strtod) (hdevid : IsInt devid)
    (hreg : env.user.registered .propertySet = true) :
    env.RoundTrips (.propertySet devid request) ↔ env.Holds (.propertySet devid request) := by
  have hnil : ¬ ([] : List UserCall) = env.user.call (.propertySet devid request.params.value) := by
    rw [call_of_registered hreg]
    simp
  cases hlog : env.logReport with
  | false =>
    have h0 : (0 : UInt8) ∉ format (dmMsgPropertySetFmt false)
        [.int devid, .slice request.params.value] := zero_not_mem_format (by decide) (by simp)
    simp only [EventEnv.RoundTrips, EventEnv.compose, dmMsgPropertySet, hlog, EventEnv.Owed,
      EventEnv.Holds, Bool.false_eq_true, if_false, formatted_iff h0, propertySet_fits hdevid,
      false_implies, and_true, true_and]
    rw [format_propertySet, called_iff (by rfl) hnil, number_cons hread hdevid (by decide) (by rfl)]
    simp only [onEvent, onPropertySet_told hread hdevid hreg, exists_and_swap,
      payload_iff (.inl rfl)]
  | true =>
    have h0 : (0 : UInt8) ∉ format (dmMsgPropertySetFmt true)
        [.int devid, .slice request.params.value, .slice request.id.value] :=
      zero_not_mem_format (by decide) (by simp)
    simp only [EventEnv.RoundTrips, EventEnv.compose, dmMsgPropertySet, hlog, EventEnv.Owed,
      EventEnv.Holds, if_true, formatted_iff h0, true_implies]
    rw [format_propertySet_logReport, called_iff (by rfl) hnil,
      number_cons hread hdevid (by decide) (by rfl),
      ← format_propertySet_logReport]
    simp only [onEvent, onPropertySet_told hread hdevid hreg, exists_and_swap,
      payload_msgid_iff (.inl rfl)]
    constructor
    · rintro ⟨hsends, hlen, hmalloc, hembeds, hmsgid⟩
      exact ⟨hsends, hmalloc, hembeds, (propertySet_logReport_fits hembeds.1).mp hlen, hmsgid⟩
    · rintro ⟨hsends, hmalloc, hembeds, hlen, hmsgid⟩
      exact ⟨hsends, (propertySet_logReport_fits hembeds.1).mpr hlen, hmalloc, hembeds, hmsgid⟩

variable {ctx : Pointer}

theorem propertyGet_iff (hread : ReadsDecimals env.strtod) (hdevid : IsInt devid)
    (hctx : ctx.length = sizeofUintptr) (hid : Unquoted request.id.value)
    (hreg : env.user.registered .propertyGet = true) :
    env.RoundTrips (.propertyGet devid request ctx) ↔
      env.Holds (.propertyGet devid request ctx) := by
  have hnil : ¬ ([] : List UserCall) = env.user.call
      (.propertyGet devid request.params.value request.id.value (.ctx ctx)) := by
    rw [call_of_registered hreg]
    simp
  have h0 : (0 : UInt8) ∉ format dmMsgThingPropertyGetFmt [.slice request.id.value, .int devid,
      .slice request.params.value, .str (infraHex2str ctx)] :=
    zero_not_mem_format (by decide) (by simp [zero_not_mem_hex])
  have hfits := propertyGet_fits (s := request.id.value) (p := request.params.value) ctx hdevid
  have hcalls : ∀ d, onPropertyGet env.user
      (itemsOf (told env.strtod (stringMember (text "id") (precision request.id.value))
        (told env.strtod (numberMember (text "devid") devid) d))) =
        env.user.call (.propertyGet devid request.params.value request.id.value (.ctx ctx)) ↔
      (env.user.malloc = true ∧ precision request.id.value = request.id.value) ∧
        (itemsOf d (text "payload")).type = .array ∧
        (itemsOf d (text "payload")).value = request.params.value ∧
        ctxPointer (itemsOf d (text "ctx")) = ctx := by
    intro d
    obtain ⟨hidItem, hdevidItem, hother⟩ := itemsOf_get (d := d) hread hdevid rfl
    rw [onPropertyGet_iff hreg hdevidItem hidItem, hother _ (by decide) (by decide),
      hother _ (by decide) (by decide)]
  simp only [EventEnv.RoundTrips, EventEnv.compose, dmMsgPropertyGet, EventEnv.Owed,
    EventEnv.Holds, formatted_iff h0, hfits, true_and]
  rw [format_propertyGet, called_iff (by rfl) hnil, string_cons (isBody_precision hid) (by decide)
    (by rfl), number_cons hread hdevid (by decide) (by rfl)]
  simp only [onEvent, hcalls, exists_and_swap, payload_ctx_iff (.inr rfl) hctx, precision_eq_iff]
  tauto

theorem propertyGet_called (hread : ReadsDecimals strtod) (hdevid : IsInt devid)
    (hctx : ctx.length = sizeofUintptr) {id : List UInt8}
    (hid : Cjson.isBody (precision id) = true) (hparams : Embeds strtod .array p)
    (hmalloc : user.malloc = true) :
    iotxLinkkitEventCallback strtod user .propertyGet
        (format dmMsgThingPropertyGetFmt [.slice id, .int devid, .slice p,
          .str (infraHex2str ctx)]) =
      some (user.call (.propertyGet devid p (precision id) (.ctx ctx))) := by
  obtain ⟨d, hd, hcall⟩ : ∃ d, document strtod (format dmMsgThingPropertyGetFmt [.slice id,
      .int devid, .slice p, .str (infraHex2str ctx)]) = some (.object, d) ∧
      onPropertyGet user (itemsOf d) =
        user.call (.propertyGet devid p (precision id) (.ctx ctx)) := by
    rw [format_propertyGet, string_cons hid (by decide) (by rfl),
      number_cons hread hdevid (by decide) (by rfl)]
    obtain ⟨d, hd, htype, hvalue, hpointer⟩ := (payload_ctx_iff (.inr rfl) hctx).mpr hparams
    refine ⟨d, hd, ?_⟩
    obtain ⟨hidItem, hdevidItem, hother⟩ :=
      itemsOf_get (s := precision id) (d := d) hread hdevid rfl
    simp only [onPropertyGet, hidItem, hdevidItem, hother (text "payload") (by decide) (by decide),
      hother (text "ctx") (by decide) (by decide), keyItem, htype, hvalue, hpointer, hmalloc]
    simp
  rw [eventCallback_eq, hd]
  exact congrArg some hcall

theorem serviceRequest_called (hread : ReadsDecimals strtod) (hdevid : IsInt devid)
    (hctx : ctx.length = sizeofUintptr) {id : List UInt8}
    (hid : Cjson.isBody (precision id) = true) {identifier : CStr}
    (hsid : Cjson.isBody identifier.val = true) (hparams : Embeds strtod .object p)
    (hmalloc : user.malloc = true) :
    iotxLinkkitEventCallback strtod user .thingServiceRequest
        (format dmMsgServiceRequestFmt [.slice id, .int devid, .slice identifier.val, .slice p,
          .str (infraHex2str ctx)]) =
      some (user.serve devid identifier.val p (precision id) (.ctx ctx)) := by
  obtain ⟨d, hd, hcall⟩ : ∃ d, document strtod (format dmMsgServiceRequestFmt [.slice id,
      .int devid, .slice identifier.val, .slice p, .str (infraHex2str ctx)]) =
        some (.object, d) ∧
      onServiceRequest user (itemsOf d) =
        user.serve devid identifier.val p (precision id) (.ctx ctx) := by
    rw [format_serviceRequest, precision_eq_self identifier.property,
      string_cons hid (by decide) (by rfl), number_cons hread hdevid (by decide) (by rfl),
      string_cons hsid (by decide) (by rfl)]
    obtain ⟨d, hd, htype, hvalue, hpointer⟩ := (payload_ctx_iff (.inl rfl) hctx).mpr hparams
    refine ⟨d, hd, ?_⟩
    obtain ⟨hidItem, hdevidItem, hsidItem, hother⟩ :=
      itemsOf_service (s := precision id) (p := identifier.val) (d := d) hread hdevid rfl
    simp only [onServiceRequest, hidItem, hdevidItem, hsidItem,
      hother (text "payload") (by decide) (by decide) (by decide),
      hother (text "ctx") (by decide) (by decide) (by decide), keyItem, htype, hvalue, hpointer,
      hmalloc]
    simp
  rw [eventCallback_eq, hd]
  exact congrArg some hcall

theorem serviceRequest_iff (hread : ReadsDecimals env.strtod) (hdevid : IsInt devid)
    (hctx : ctx.length = sizeofUintptr) (hid : Unquoted request.id.value)
    {identifier : CStr} (hsid : Unquoted identifier.val) (hserves : env.user.Serves) :
    env.RoundTrips (.serviceRequest devid identifier request ctx) ↔
      env.Holds (.serviceRequest devid identifier request ctx) := by
  have hnil : ¬ ([] : List UserCall) = env.user.serve devid identifier.val request.params.value
      request.id.value (.ctx ctx) := (serve_ne_nil hserves).symm
  have hwhole : precision identifier.val = identifier.val := precision_eq_self identifier.property
  have h0 : (0 : UInt8) ∉ format dmMsgServiceRequestFmt [.slice request.id.value, .int devid,
      .slice identifier.val, .slice request.params.value, .str (infraHex2str ctx)] :=
    zero_not_mem_format (by decide) (by simp [zero_not_mem_hex])
  have hfits := serviceRequest_fits (s := request.id.value) (p := request.params.value) ctx
    identifier hdevid
  have hcalls : ∀ d, onServiceRequest env.user
      (itemsOf (told env.strtod (stringMember (text "id") (precision request.id.value))
        (told env.strtod (numberMember (text "devid") devid)
          (told env.strtod (stringMember (text "serviceid") identifier.val) d)))) =
        env.user.serve devid identifier.val request.params.value request.id.value (.ctx ctx) ↔
      (env.user.malloc = true ∧ precision request.id.value = request.id.value) ∧
        (itemsOf d (text "payload")).type = .object ∧
        (itemsOf d (text "payload")).value = request.params.value ∧
        ctxPointer (itemsOf d (text "ctx")) = ctx := by
    intro d
    obtain ⟨hidItem, hdevidItem, hsidItem, hother⟩ := itemsOf_service (d := d) hread hdevid rfl
    rw [onServiceRequest_iff hserves hdevidItem hidItem hsidItem,
      hother _ (by decide) (by decide) (by decide), hother _ (by decide) (by decide) (by decide)]
    simp only [and_true]
  simp only [EventEnv.RoundTrips, EventEnv.compose, dmMsgThingServiceRequest, EventEnv.Owed,
    EventEnv.Holds]
  split
  next hswitch => simp [hswitch]
  next hswitch =>
    simp only [formatted_iff h0, hfits, true_and]
    rw [format_serviceRequest, hwhole, called_iff (by rfl) hnil,
      string_cons (isBody_precision hid) (by decide) (by rfl),
      number_cons hread hdevid (by decide) (by rfl),
      string_cons (isBody_of_unquoted hsid.1 hsid.2) (by decide) (by rfl)]
    simp only [onEvent, hcalls, exists_and_swap, payload_ctx_iff (.inl rfl) hctx, precision_eq_iff]
    tauto

theorem rrpcid_payload_iff {q : List UInt8} :
    (∃ d, document strtod (123 :: ((stringMember (text "rrpcid") q).bytes ++
        44 :: payloadText (precision p) [125])) = some (.object, d) ∧
      ((itemsOf d (text "rrpcid")).type = .string ∧ (itemsOf d (text "rrpcid")).value = q) ∧
      (itemsOf d (text "payload")).type = .object ∧ (itemsOf d (text "payload")).value = p) ↔
      Cjson.isBody q = true ∧ Embeds strtod .object p := by
  have hkey : IsKey (text "rrpcid") := by decide
  have hpayload : text "payload" ≠ text "rrpcid" := by decide
  have hbody : (∃ d, document strtod (123 :: ((stringMember (text "rrpcid") q).bytes ++
        44 :: payloadText (precision p) [125])) = some (.object, d) ∧
      ((itemsOf d (text "rrpcid")).type = .string ∧ (itemsOf d (text "rrpcid")).value = q) ∧
      (itemsOf d (text "payload")).type = .object ∧ (itemsOf d (text "payload")).value = p) →
      Cjson.isBody q = true := by
    rintro ⟨d, hd, ⟨htype, hvalue⟩, -⟩
    rw [stringMember_append] at hd
    have hit : d (text "rrpcid") = some (itemsOf d (text "rrpcid")) :=
      item_of_type (by rw [htype]; decide)
    have hq := isBody_of_document hkey.2 hkey.1 hd hit
    rwa [hvalue] at hq
  have hrest : Cjson.isBody q = true → ((∃ d, document strtod
        (123 :: ((stringMember (text "rrpcid") q).bytes ++
          44 :: payloadText (precision p) [125])) = some (.object, d) ∧
      ((itemsOf d (text "rrpcid")).type = .string ∧ (itemsOf d (text "rrpcid")).value = q) ∧
      (itemsOf d (text "payload")).type = .object ∧ (itemsOf d (text "payload")).value = p) ↔
      Embeds strtod .object p) := by
    intro hq
    rw [string_cons hq hkey (by rfl)]
    simp only [itemsOf_string, keyItem, itemsOf_other
      (m := stringMember (text "rrpcid") q) hpayload,
      true_and, payload_iff (.inl rfl)]
  exact ⟨fun h => ⟨hbody h, (hrest (hbody h)).mp h⟩, fun h => (hrest h.1).mpr h.2⟩

theorem rrpcRequest_iff (hread : ReadsDecimals env.strtod) (hdevid : IsInt devid) {rrpcid : CStr}
    (hid : Unquoted request.id.value) (hmethod : Unquoted request.method.value)
    (hserves : env.user.Serves) :
    env.RoundTrips (.rrpcRequest devid rrpcid request) ↔
      env.Holds (.rrpcRequest devid rrpcid request) := by
  simp only [EventEnv.RoundTrips, EventEnv.compose, dmMsgRrpcRequest, EventEnv.Owed,
    EventEnv.Holds]
  cases hservice : rrpcServiceid request.method.value with
  | none => simp
  | some serviceid =>
    have hsid : Unquoted serviceid := by
      obtain ⟨offset, -, hdrop⟩ := Option.bind_eq_some_iff.mp hservice
      split at hdrop
      · cases hdrop
      · cases hdrop
        exact ⟨fun h => hmethod.1 (List.mem_of_mem_drop h),
          fun h => hmethod.2 (List.mem_of_mem_drop h)⟩
    have hnil : ¬ ([] : List UserCall) = env.user.serve devid serviceid request.params.value
        request.id.value (.rrpc rrpcid.val) := (serve_ne_nil hserves).symm
    have hwhole : precision rrpcid.val = rrpcid.val := precision_eq_self rrpcid.property
    have h0 : (0 : UInt8) ∉ format dmMsgEventRrpcRequestFmt [.slice request.id.value, .int devid,
        .slice serviceid, .slice rrpcid.val, .slice request.params.value] :=
      zero_not_mem_format (by decide) (by simp)
    have hfits : (format dmMsgEventRrpcRequestFmt [.slice request.id.value, .int devid,
        .slice serviceid, .slice rrpcid.val, .slice request.params.value]).length <
        dmMsgEventRrpcRequestFmt.length + request.id.value.length + uint32Strlen +
          serviceid.length + rrpcid.strlen + request.params.value.length + 1 := by
      apply format_fits
      · simp [hdevid]
      · simp only [List.map_cons, List.map_nil, List.sum_cons, List.sum_nil, Arg.size,
          uint32Strlen, CStr.strlen]
        omega
    have hcalls : ∀ d, onRrpcRequest env.user
        (itemsOf (told env.strtod (stringMember (text "id") (precision request.id.value))
          (told env.strtod (numberMember (text "devid") devid)
            (told env.strtod (stringMember (text "serviceid") (precision serviceid)) d)))) =
          env.user.serve devid serviceid request.params.value request.id.value
            (.rrpc rrpcid.val) ↔
        (env.user.malloc = true ∧ precision request.id.value = request.id.value ∧
          precision serviceid = serviceid) ∧
          ((itemsOf d (text "rrpcid")).type = .string ∧
            (itemsOf d (text "rrpcid")).value = rrpcid.val) ∧
          (itemsOf d (text "payload")).type = .object ∧
          (itemsOf d (text "payload")).value = request.params.value := by
      intro d
      obtain ⟨hidItem, hdevidItem, hsidItem, hother⟩ := itemsOf_service (d := d) hread hdevid rfl
      rw [onRrpcRequest_iff hserves hdevidItem hidItem hsidItem,
        hother _ (by decide) (by decide) (by decide), hother _ (by decide) (by decide) (by decide)]
    simp only [Option.some.injEq, exists_eq_left', formatted_iff h0, hfits, true_and]
    rw [format_rrpcRequest, hwhole, called_iff (by rfl) hnil,
      string_cons (isBody_precision hid) (by decide) (by rfl),
      number_cons hread hdevid (by decide) (by rfl),
      string_cons (isBody_precision hsid) (by decide) (by rfl)]
    simp only [onEvent, hcalls, exists_and_swap, rrpcid_payload_iff, precision_eq_iff]
    tauto

end Kinds

section Replies

variable {devid : Int} {response : DmMsgResponsePayload}

theorem awaited_unique (h : env.Awaited response devid) {devid' : Int} :
    env.Awaited response devid' ↔ devid' = devid := by
  obtain ⟨hparse, hint, node, hnode, rfl⟩ := h
  constructor
  · rintro ⟨-, -, node', hnode', rfl⟩
    rw [hnode] at hnode'
    cases hnode'
    rfl
  · rintro rfl
    exact ⟨hparse, hint, node, hnode, rfl⟩

theorem reply_cons (hread : ReadsDecimals strtod) {id code : Int} (hid : IsInt id)
    (hcode : IsInt code) (hdevid : IsInt devid) {rest : List UInt8}
    (hrest : rest.head? = some 34) {owed : (List UInt8 → Option LiteCjson) → Prop} :
    (∃ d, document strtod (123 :: ((numberMember (text "id") id).bytes ++
        44 :: ((numberMember (text "code") code).bytes ++
          44 :: ((numberMember (text "devid") devid).bytes ++ 44 :: rest)))) =
            some (.object, d) ∧ owed d) ↔
      ∃ d, document strtod (123 :: rest) = some (.object, d) ∧
        owed (told strtod (numberMember (text "id") id)
          (told strtod (numberMember (text "code") code)
            (told strtod (numberMember (text "devid") devid) d))) := by
  rw [number_cons hread hid (by decide) (by rfl), number_cons hread hcode (by decide) (by rfl),
    number_cons hread hdevid (by decide) hrest]

theorem itemsOf_reply (hread : ReadsDecimals strtod) {id code : Int} (hid : IsInt id)
    (hcode : IsInt code) (hdevid : IsInt devid) {items : Items}
    (h : items = itemsOf (told strtod (numberMember (text "id") id)
      (told strtod (numberMember (text "code") code)
        (told strtod (numberMember (text "devid") devid) d)))) :
    items (text "id") = ⟨.number, decimal id, 0, id⟩ ∧
      items (text "code") = ⟨.number, decimal code, 0, code⟩ ∧
      items (text "devid") = ⟨.number, decimal devid, 0, devid⟩ ∧
      ∀ key, key ≠ text "id" → key ≠ text "code" → key ≠ text "devid" →
        items key = itemsOf d key := by
  subst h
  have hcodeKey : text "code" ≠ text "id" := by decide
  have hdevidKey : text "devid" ≠ text "id" ∧ text "devid" ≠ text "code" := by decide
  refine ⟨itemsOf_number hread hid, ?_, ?_, ?_⟩
  · exact (itemsOf_other hcodeKey).trans (itemsOf_number hread hcode)
  · exact (itemsOf_other hdevidKey.1).trans
      ((itemsOf_other hdevidKey.2).trans (itemsOf_number hread hdevid))
  · intro key h₁ h₂ h₃
    rw [itemsOf_other h₁, itemsOf_other h₂, itemsOf_other h₃]

theorem inputEnd_cut {m : List UInt8} (hm : Cjson.isBody m = true) :
    inputEnd (precision m ++ [125]) = none := by
  rw [Option.eq_none_iff_forall_not_mem]
  intro len hlen
  obtain ⟨body, rest, hcut, rfl, hbody⟩ := isBody_of_inputEnd hlen
  rcases List.eq_nil_or_concat rest with rfl | ⟨rest, b, rfl⟩
  · have hlast := (List.append_inj' hcut rfl).2
    cases hlast
  · have hsplit : precision m ++ [125] = (body ++ 34 :: rest) ++ [b] := by
      rw [hcut, List.append_assoc, List.cons_append, List.concat_eq_append]
    have hprecision : precision m = body ++ 34 :: rest := (List.append_inj' hsplit rfl).1
    have hwhole : m ++ [34] = body ++ 34 :: (rest ++ (m.dropWhile (· ≠ 0) ++ [34])) := by
      have htext : m = precision m ++ m.dropWhile (· ≠ 0) :=
        (List.takeWhile_append_dropWhile ..).symm
      conv_lhs => rw [htext, hprecision]
      simp
    -- the quote inside would end the whole text as well
    have hend := inputEnd_of_isBody hm []
    rw [hwhole, inputEnd_of_isBody hbody] at hend
    have hlen := congrArg List.length hwhole
    simp only [List.length_append, List.length_cons, List.length_nil] at hlen
    have hsame : body.length = m.length := Option.some.inj hend
    omega

theorem reads_quoted {m : List UInt8} (hm : Cjson.isBody m = true) :
    env.Reads (precision (34 :: (m ++ [34]))) ↔ (0 : UInt8) ∉ m := by
  have hprecision : precision (precision (34 :: (m ++ [34]))) = 34 :: precision (m ++ [34]) := by
    rw [precision_eq_self zero_not_mem_precision]
    rfl
  rw [EventEnv.Reads, payloadObject, payloadText, hprecision]
  constructor
  · rintro ⟨d, hd, -⟩ h0
    rw [precision_append_of_mem h0, List.cons_append] at hd
    obtain ⟨len, hlen⟩ := inputEnd_of_document payload_ne.2 hd
    rw [inputEnd_cut hm] at hlen
    cases hlen
  · intro h0
    have hwhole : precision (m ++ [34]) = m ++ [34] := precision_eq_self (by simp [h0])
    have htext : 123 :: (quote (text "payload") ++ 58 :: (34 :: precision (m ++ [34]) ++ [125])) =
        123 :: ((stringMember (text "payload") m).bytes ++ 125 :: []) := by
      rw [stringMember_append, hwhole]
      simp
    rw [htext, exists_document_last (stringMember_ok hm payload_ne.2) rfl payload_ne.1,
      itemsOf_string]
    intro h
    cases h

theorem propertyPostReply_iff (hread : ReadsDecimals env.strtod) (h : env.Awaited response devid)
    (hreg : env.user.registered .reportReply = true) :
    env.RoundTrips (.propertyPostReply response) ↔ env.Holds (.propertyPostReply response) := by
  have howed : ∀ calls, env.Owed (.propertyPostReply response) calls ↔ ∃ payload, calls =
      [.reportReply devid (responseId env.atoi response) response.code.valueInt payload] := by
    simp only [EventEnv.Owed, awaited_unique h]
    simp
  obtain ⟨⟨payload, hparse⟩, hdevid, node, hnode, rfl⟩ := h
  have hid : IsInt (responseId env.atoi response) := env.atoi.isInt _
  have hcode : IsInt response.code.valueInt := isInt_code hparse
  have h0 : (0 : UInt8) ∉ format dmMsgEventPropertyPostReplyFmt
      [.int (responseId env.atoi response), .int response.code.valueInt, .int node.devid,
        .slice (postReplyPayload response)] := zero_not_mem_format (by decide) (by simp)
  have hfits : (format dmMsgEventPropertyPostReplyFmt
      [.int (responseId env.atoi response), .int response.code.valueInt, .int node.devid,
        .slice (postReplyPayload response)]).length <
      dmMsgEventPropertyPostReplyFmt.length + uint32Strlen * 3 +
        (postReplyPayload response).length + 1 := by
    apply format_fits
    · simp [hid, hcode, hdevid]
    · simp only [List.map_cons, List.map_nil, List.sum_cons, List.sum_nil, Arg.size, uint32Strlen]
      omega
  have hcalls : ∀ d, (∃ payload, onPropertyPostReply env.user
      (itemsOf (told env.strtod (numberMember (text "id") (responseId env.atoi response))
        (told env.strtod (numberMember (text "code") response.code.valueInt)
          (told env.strtod (numberMember (text "devid") node.devid) d)))) =
        [.reportReply node.devid (responseId env.atoi response) response.code.valueInt payload]) ↔
      (hasUserPayload (itemsOf d (text "payload")) = true → env.user.malloc = true) := by
    intro d
    obtain ⟨hidItem, hcodeItem, hdevidItem, hother⟩ :=
      itemsOf_reply (d := d) hread hid hcode hdevid rfl
    rw [onPropertyPostReply_iff hreg hidItem hcodeItem hdevidItem,
      hother _ (by decide) (by decide) (by decide)]
    simp only [true_and]
  have hreads : env.Reads (postReplyPayload response) ↔
      if response.message.value = text "success" then env.Reads response.data.value
      else if response.message.type = .string then (0 : UInt8) ∉ response.message.value
      else env.Reads response.message.value := by
    unfold postReplyPayload
    split
    · rfl
    next hsuccess =>
      by_cases hstring : response.message.type = .string
      · simp only [needsQuotes, hsuccess, hstring, ne_eq, not_false_eq_true, decide_true,
          Bool.and_self, if_true]
        exact reads_quoted (isBody_message hparse hstring)
      · simp only [needsQuotes, hstring, decide_false, Bool.and_false, Bool.false_eq_true,
          if_false]
  simp only [EventEnv.RoundTrips, EventEnv.compose, dmMsgThingEventPropertyPostReply, howed,
    EventEnv.Holds, hnode, ← hreads]
  split
  next hlong => simp [Nat.not_le.mpr hlong]
  next hshort =>
    have hle : response.id.value.length ≤ uint32Strlen := Nat.not_lt.mp hshort
    split
    next hmalloc => simp [EventEnv.Sends, hmalloc.2]
    next =>
      simp only [formatted_iff h0, hfits, hle, true_and]
      rw [format_propertyPostReply, called_iff (by rfl) (by simp),
        reply_cons hread hid hcode hdevid (by rfl)]
      simp only [onEvent, hcalls, EventEnv.Reads, payloadObject]

theorem eventPostReply_iff (hread : ReadsDecimals env.strtod) (h : env.Awaited response devid)
    {identifier : CStr} {identifierLen : Nat}
    (hreg : env.user.registered .triggerEventReply = true) :
    env.RoundTrips (.eventPostReply identifier identifierLen response) ↔
      env.Holds (.eventPostReply identifier identifierLen response) := by
  have howed : ∀ calls, env.Owed (.eventPostReply identifier identifierLen response) calls ↔
      ∃ eventid payload, calls = [.triggerEventReply devid (responseId env.atoi response)
        response.code.valueInt eventid payload] := by
    simp only [EventEnv.Owed, awaited_unique h]
    simp
  obtain ⟨⟨payload, hparse⟩, hdevid, node, hnode, rfl⟩ := h
  have hid : IsInt (responseId env.atoi response) := env.atoi.isInt _
  have hcode : IsInt response.code.valueInt := isInt_code hparse
  have h0 : (0 : UInt8) ∉ format dmMsgEventSpecificPostReplyFmt
      [.int (responseId env.atoi response), .int response.code.valueInt, .int node.devid,
        .slice (identifier.val.take identifierLen), .slice response.message.value] :=
    zero_not_mem_format (by decide) (by simp)
  have hfits : (format dmMsgEventSpecificPostReplyFmt
      [.int (responseId env.atoi response), .int response.code.valueInt, .int node.devid,
        .slice (identifier.val.take identifierLen), .slice response.message.value]).length <
      dmMsgEventSpecificPostReplyFmt.length + uint32Strlen * 3 + identifier.strlen +
        response.message.value.length + 1 := by
    have htake := List.length_take_le' identifierLen identifier.val
    apply format_fits
    · simp [hid, hcode, hdevid]
    · simp only [List.map_cons, List.map_nil, List.sum_cons, List.sum_nil, Arg.size, uint32Strlen,
        CStr.strlen]
      omega
  have hcalls : ∀ d, (∃ eventid payload, onEventPostReply env.user
      (itemsOf (told env.strtod (numberMember (text "id") (responseId env.atoi response))
        (told env.strtod (numberMember (text "code") response.code.valueInt)
          (told env.strtod (numberMember (text "devid") node.devid) d)))) =
        [.triggerEventReply node.devid (responseId env.atoi response) response.code.valueInt
          eventid payload]) ↔
      env.user.malloc = true ∧ (itemsOf d (text "eventid")).type = .string ∧
        (itemsOf d (text "payload")).type = .string := by
    intro d
    obtain ⟨hidItem, hcodeItem, hdevidItem, hother⟩ :=
      itemsOf_reply (d := d) hread hid hcode hdevid rfl
    rw [onEventPostReply_iff hreg hidItem hcodeItem hdevidItem,
      hother _ (by decide) (by decide) (by decide), hother _ (by decide) (by decide) (by decide)]
    simp only [true_and]
  simp only [EventEnv.RoundTrips, EventEnv.compose, dmMsgThingEventPostReply, howed,
    EventEnv.Holds, hnode]
  split
  next hlong => simp [Nat.not_le.mpr hlong]
  next hshort =>
    have hle : response.id.value.length ≤ uint32Strlen := Nat.not_lt.mp hshort
    simp only [formatted_iff h0, hfits, hle, true_and]
    rw [format_eventPostReply, called_iff (by rfl) (by simp),
      reply_cons hread hid hcode hdevid (by rfl)]
    simp only [onEvent, hcalls, eventObject, exists_and_swap]

end Replies

theorem onGatewayPermit_iff (hreg : user.registered .permitJoin = true)
    (htime : (items (text "time")).type = .number) :
    onGatewayPermit user items = user.call (.permitJoin
        (if (items (text "productKey")).type = .string then (items
          (text "productKey")).value else [])
        (items (text "time")).valueInt) ↔
      ((items (text "productKey")).type = .string → user.malloc = true) := by
  have hcall : ∀ q i, user.call (.permitJoin q i) = [.permitJoin q i] :=
    fun q i => call_of_registered hreg
  simp only [onGatewayPermit, htime, hcall]
  by_cases htype : (items (text "productKey")).type = .string
  · cases user.malloc <;> simp [htype]
  · simp [htype]

theorem gatewayPermit_iff {rest : UInt8} (hne : p ≠ []) (h : env.Permits p)
    (hreg : env.user.registered .permitJoin = true) :
    env.RoundTrips (.gatewayPermit p rest) ↔ env.Holds (.gatewayPermit p rest) := by
  obtain ⟨d, hd, htime⟩ := h
  obtain ⟨lite, hlite, heq⟩ := Option.map_eq_some_iff.mp hd
  have htype : lite.type = .object := congrArg Prod.fst heq
  have hpermit := onGatewayPermit_iff hreg htime
  have hcallback : iotxLinkkitEventCallback env.strtod env.user .gatewayPermit p =
      some (onGatewayPermit env.user (itemsOf d)) := by
    rw [eventCallback_eq, hd]
    rfl
  simp only [EventEnv.RoundTrips, EventEnv.compose, dmMsgThingGatewayPermit, if_neg hne, hlite,
    htype, EventEnv.Owed, EventEnv.Holds, EventEnv.Sends, hd, Option.some.injEq, Prod.mk.injEq,
    true_and, exists_eq_left', forall_eq']
  cases env.io.malloc with
  | false => simp
  | true =>
    cases env.io.sent with
    | false => simp
    | true =>
      simp [cString_append_singleton, hcallback, hpermit, and_assoc]

/-- A message that the parsers accept round-trips exactly where it holds. -/
theorem roundTrips_iff (hread : ReadsDecimals env.strtod) {m : CloudMessage}
    (h : env.Accepted m) : env.RoundTrips m ↔ env.Holds m := by
  cases m with
  | propertySet devid request =>
    obtain ⟨-, hdevid, hreg⟩ := h
    exact propertySet_iff hread hdevid hreg
  | propertyGet devid request ctx =>
    obtain ⟨⟨-, hid, -, -⟩, hdevid, hctx, hreg⟩ := h
    exact propertyGet_iff hread hdevid hctx hid hreg
  | serviceRequest devid identifier request ctx =>
    obtain ⟨⟨-, hid, -, -⟩, hdevid, hctx, hsid, hserves⟩ := h
    exact serviceRequest_iff hread hdevid hctx hid hsid hserves
  | rrpcRequest devid rrpcid request =>
    obtain ⟨⟨-, hid, hmethod, -⟩, hdevid, hserves⟩ := h
    exact rrpcRequest_iff hread hdevid hid hmethod hserves
  | propertyPostReply response =>
    obtain ⟨⟨devid, hawaited⟩, hreg⟩ := h
    exact propertyPostReply_iff hread hawaited hreg
  | eventPostReply identifier identifierLen response =>
    obtain ⟨⟨devid, hawaited⟩, hreg⟩ := h
    exact eventPostReply_iff hread hawaited hreg
  | gatewayPermit payload rest =>
    obtain ⟨hne, hpermits, hreg⟩ := h
    exact gatewayPermit_iff hne hpermits hreg

/-- A build without log report, whose cache holds a request with the id 7 of device 3. -/
def sampleEnv : EventEnv where
  logReport := false
  strtod := integerStrtod
  atoi := integerAtoi
  cache := ⟨1, [⟨7, 3, .eventPropertyPostReply, none, 0⟩]⟩
  io := ⟨true, true⟩
  user := ⟨fun _ => true, true, true⟩

/-- `{"id":"5","version":"1.0","method":"thing.service.property.set","params":{"a":1}}`, as the
parser takes it. -/
def sampleRequest : DmMsgRequestPayload where
  id := keyItem (text "5")
  version := keyItem (text "1.0")
  method := keyItem (text "thing.service.property.set")
  params := ⟨.object, text "\x7b\"a\":1\x7d", 1, 0⟩

/-- `{"id":"7","code":200,"data":{}}` with a message or without one. -/
def sampleResponse (message : LiteCjson) : DmMsgResponsePayload where
  id := keyItem (text "7")
  code := ⟨.number, text "200", 0, 200⟩
  data := ⟨.object, text "\x7b\x7d", 0, 0⟩
  message := message

theorem sampleRequest_embeds : Embeds integerStrtod .object sampleRequest.params.value := by
  have hone : IsNumber integerStrtod [49] := by
    refine ⟨⟨49, [], rfl, rfl⟩, ?_, by decide, by decide⟩
    exact List.forall_mem_singleton.mpr (by decide)
  refine ⟨by decide, .object 1, ⟨_, rfl, .inr ⟨[⟨[], [97], [], ⟨[], .number, [49], []⟩⟩],
    by simp, rfl, ?_, rfl⟩⟩, rfl⟩
  rw [List.forall_mem_singleton]
  refine ⟨spaces_nil, rfl, spaces_nil, spaces_nil, ?_, spaces_nil⟩
  rw [IsValue]
  exact hone

theorem sampleRequest_accepted : sampleEnv.Accepted (.propertySet 3 sampleRequest) := by
  have hparse : dmMsgRequestParse integerStrtod (text ("\x7b\"id\":\"5\",\"version\":\"1.0\"," ++
      "\"method\":\"thing.service.property.set\",\"params\":\x7b\"a\":1\x7d\x7d")) =
        some sampleRequest := by decide
  exact ⟨⟨⟨_, hparse⟩, by decide, by decide, rfl⟩, by decide, rfl⟩

theorem sampleResponse_accepted (message : LiteCjson) (payload : List UInt8)
    (h : dmMsgResponseParse integerStrtod payload = some (sampleResponse message)) :
    sampleEnv.Accepted (.propertyPostReply (sampleResponse message)) :=
  ⟨⟨3, ⟨payload, h⟩, by decide, _, rfl, rfl⟩, rfl⟩

theorem roundTrips_iff_samples :
    sampleEnv.RoundTrips (.propertySet 3 sampleRequest) ∧
      sampleEnv.RoundTrips (.propertyPostReply (sampleResponse (keyItem (text "success")))) := by
  constructor
  · apply (roundTrips_iff readsDecimals_integerStrtod sampleRequest_accepted).mpr
    exact ⟨⟨rfl, rfl⟩, rfl, sampleRequest_embeds, fun h => nomatch h⟩
  · have haccepted := sampleResponse_accepted (keyItem (text "success"))
      (text "\x7b\"id\":\"7\",\"code\":200,\"data\":\x7b\x7d,\"message\":\"success\"\x7d")
      (by decide)
    apply (roundTrips_iff readsDecimals_integerStrtod haccepted).mpr
    have hparse : liteCjsonParse integerStrtod (text "\x7b\"payload\":\x7b\x7d\x7d") =
        some ⟨.object, text "\x7b\"payload\":\x7b\x7d\x7d", 1, 0⟩ := by decide
    have hdocument : document integerStrtod (text "\x7b\"payload\":\x7b\x7d\x7d") =
        some (.object, liteCjsonObjectItem integerStrtod ⟨.object,
          text "\x7b\"payload\":\x7b\x7d\x7d", 1, 0⟩) := by
      rw [document, hparse]
      rfl
    exact ⟨⟨rfl, rfl⟩, by decide, _, hdocument, fun _ => rfl⟩

/-- A reply without a message is dropped. -/
theorem reply_without_message_dropped :
    ¬ ∀ (env : EventEnv) (m : CloudMessage), ReadsDecimals env.strtod → env.Accepted m →
      env.RoundTrips m := by
  intro h
  have haccepted := sampleResponse_accepted .zero
    (text "\x7b\"id\":\"7\",\"code\":200,\"data\":\x7b\x7d\x7d") (by decide)
  obtain ⟨e, he, -, calls, hcalls, devid, payload, -, howed⟩ :=
    h sampleEnv _ readsDecimals_integerStrtod haccepted
  have hevent : (sampleEnv.compose (.propertyPostReply (sampleResponse .zero))).2.map
      (fun e => iotxLinkkitEventCallback integerStrtod sampleEnv.user e.type e.whole) =
        some (some []) := by decide
  rw [he, Option.map_some, Option.some.injEq] at hevent
  have hsame : some calls = some [] := hcalls.symm.trans hevent
  rw [howed] at hsame
  cases hsame

end AliyunIot.Linkkit
