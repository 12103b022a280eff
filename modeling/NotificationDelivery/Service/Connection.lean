import NotificationDelivery.Library.Exceptions
import NotificationDelivery.Library.Utf8
import NotificationDelivery.Service.PostResponse

/-!
# Every request to the server

`HttpServer::handleConnection` (`src/HttpServer.cpp`) with all of its routes, and the accept loop
around it. An exception that the handler throws out of its own `catch` block ends the thread
and with it the process. `answered_iff` says which requests do that.
-/

namespace NotificationDelivery

/-- The request methods that the handler tells apart. -/
inductive Method where
  | get
  | post
  | other
  deriving DecidableEq, Repr

/-- What `http::read` has read of a request. -/
structure Request where
  method : Method
  target : List UInt8
  body : List UInt8 := []
  deriving DecidableEq, Repr

/-- The bytes of a text. -/
def textBytes (text : String) : List UInt8 := text.toUTF8.data.toList

/-- A hexadecimal digit as an ASCII byte. -/
def hexDigit (digit : UInt8) : UInt8 := if digit < 10 then 0x30 + digit else 0x37 + digit

/-- A byte of the token string in an error text: `<U+001F>` for a control character, all other
bytes as they were read. -/
def shownByte (byte : UInt8) : List UInt8 :=
  if byte ≤ 0x1F then
    [0x3C, 0x55, 0x2B, 0x30, 0x30, hexDigit (byte / 16), hexDigit (byte % 16), 0x3E]
  else [byte]

/-- How `nlohmann::json::parse` fails: at a token that its lexer rejects, of which the error text
quotes the bytes read so far, or at a token that may not stand where it does. -/
inductive ParseError where
  | token (reason : String) (lastRead : List UInt8) (expected : String)
  | unexpected (text : String)
  deriving DecidableEq, Repr

/-- `parse_error::what()`. -/
def ParseError.toExn : ParseError → Exn
  | .token reason lastRead expected =>
      ⟨textBytes reason ++ (textBytes "; last read: '" ++
        (lastRead.flatMap shownByte ++ (textBytes "'" ++ textBytes expected)))⟩
  | .unexpected text => .ofText text

/-- How the calls of a request of any kind end. -/
structure ConnectionCalls extends CallOutcomes where
  findById : Except Exn Unit := .ok ()
  findByNotificationId : Except Exn Unit := .ok ()
  list : Except Exn Unit := .ok ()

/-- The parser of the request bodies. -/
abbrev JsonParser := List UInt8 → Except ParseError Json

def JsonParser.parse (parser : JsonParser) (bytes : List UInt8) : Except Exn Json :=
  (parser bytes).mapError ParseError.toExn

/-- `toString(AttemptStatus)`. -/
def AttemptStatus.toString : AttemptStatus → String
  | .success => "SUCCESS"
  | .transientFailure => "TRANSIENT_FAILURE"
  | .permanentFailure => "PERMANENT_FAILURE"

/-- `attemptToJson`. -/
def DeliveryAttempt.toJson (a : DeliveryAttempt) : Json :=
  .obj [("attemptNumber", .int a.attemptNumber), ("status", .str a.status.toString),
    ("providerRef", a.providerRef.elim .null .str),
    ("errorMessage", a.errorMessage.elim .null .str)]

/-- The body of a detail response. -/
def detailJson (n : Notification) (attempts : List DeliveryAttempt) : Json :=
  match n.toJson with
  | .obj fields =>
      .obj (fields ++ [("deliveryAttempts", .arr (attempts.map DeliveryAttempt.toJson))])
  | other => other

/-- `list(nullopt, nullopt, 50, 0)`; the rows are stored in the order of their creation. -/
def Database.recent (db : Database) : List Notification := db.notifications.reverse.take 50

/-- `findById` for an id that a client sent; an id that is not text is no row's id. -/
def Database.findByIdBytes (collate : String → String) (db : Database) (id : List UInt8) :
    Option Notification :=
  (String.fromUTF8? ⟨id.toArray⟩).bind (db.findByIdUnder collate)

/-- `findByNotificationId` for an id that a client sent. -/
def Database.findByNotificationIdBytes (collate : String → String) (db : Database)
    (id : List UInt8) : List DeliveryAttempt :=
  (String.fromUTF8? ⟨id.toArray⟩).elim [] (db.findByNotificationIdUnder collate)

def submitTarget : List UInt8 := textBytes "/api/notifications"

def detailPrefix : List UInt8 := textBytes "/api/notifications/"

namespace Request

/-- `POST /api/notifications`. -/
def IsSubmission (req : Request) : Prop := req.method = .post ∧ req.target = submitTarget

/-- `GET /api/notifications/{id}`. -/
def IsDetail (req : Request) (id : List UInt8) : Prop :=
  req.method = .get ∧ req.target = detailPrefix ++ id

/-- `GET` of any other target that begins with `/api/notifications`. -/
def IsList (req : Request) : Prop :=
  req.method = .get ∧ submitTarget <+: req.target ∧ ¬ detailPrefix <+: req.target

end Request

namespace HttpServer

/-- `GET /api/notifications/{id}`. -/
def detail (collate : String → String) (calls : ConnectionCalls) (id : List UInt8) :
    Action Response := do
  calls.findById
  match (← get).database.findByIdBytes collate id with
  | none => return { status := 404, body := .obj [("error", .str "not found")] }
  | some n =>
      calls.findByNotificationId
      let attempts := (← get).database.findByNotificationIdBytes collate id
      return { status := 200, body := detailJson n attempts }

/-- `GET /api/notifications`. -/
def list (calls : ConnectionCalls) : Action Response := do
  calls.list
  return { status := 200,
           body := .obj [("notifications",
             .arr ((← get).database.recent.map Notification.toJson))] }

/-- The `try` block of the handler. -/
def route (config : Config) (collate : String → String) (parser : JsonParser)
    (keyUuid uuid : String) (calls : ConnectionCalls) (req : Request) : Action Response :=
  if req.method = .get ∧ req.target = textBytes "/healthz" then
    return { status := 200, body := .obj [("status", .str "ok")] }
  else if req.method = .post ∧ req.target = submitTarget then do
    let saved ← acceptNotification config collate parser.parse keyUuid uuid calls.toCallOutcomes
      req.body
    return { status := 202, body := saved.toJson }
  else if req.method = .get ∧ detailPrefix <+: req.target then
    detail collate calls (req.target.drop detailPrefix.length)
  else if req.method = .get ∧ submitTarget <+: req.target then
    list calls
  else
    return { status := 404, body := .obj [("error", .str "no such route")] }

/-- `handleConnection` after `http::read`: the answer, unless the `catch` block throws itself, and
what is stored afterwards. -/
def handleConnection (config : Config) (collate : String → String) (parser : JsonParser)
    (keyUuid uuid : String) (calls : ConnectionCalls) (req : Request) (s : Stores) :
    Option Response × Stores :=
  match (route config collate parser keyUuid uuid calls req).run s with
  | (.ok response, after) => (some response, after)
  | (.error ex, after) => (errorResponse ex, after)

/-- A connection that a thread accepts: what was read of its request, unless `http::read` failed,
and how the calls of the request end. -/
structure Connection where
  request : Option Request
  keyUuid : String
  uuid : String
  calls : ConnectionCalls

/-- `acceptLoop` of one thread; there is no state after an exception has ended the process. -/
def acceptLoop (config : Config) (collate : String → String) (parser : JsonParser) :
    List Connection → Stores → Option Stores
  | [], s => some s
  | connection :: rest, s =>
      match connection.request with
      | none => acceptLoop config collate parser rest s
      | some req =>
          match handleConnection config collate parser connection.keyUuid connection.uuid
            connection.calls req s with
          | (some _, next) => acceptLoop config collate parser rest next
          | (none, _) => none

end HttpServer

open Throwing

/-- The error text quotes bytes that are not UTF-8. -/
def ParseError.QuotesInvalid : ParseError → Prop
  | .token _ lastRead _ => ¬ Utf8.Valid lastRead
  | .unexpected _ => False

theorem ascii_hex_digit {digit : UInt8} (h : digit.toNat < 16) : Utf8.Ascii (hexDigit digit) := by
  unfold Utf8.Ascii hexDigit
  split
  · rw [UInt8.toNat_add]
    show (48 + digit.toNat) % 2 ^ 8 ≤ 0x7f
    omega
  · rw [UInt8.toNat_add]
    show (55 + digit.toNat) % 2 ^ 8 ≤ 0x7f
    omega

theorem shown_byte_cases (byte : UInt8) : shownByte byte = [byte] ∨
    Utf8.Ascii byte ∧ shownByte byte ≠ [] ∧ ∀ other ∈ shownByte byte, Utf8.Ascii other := by
  by_cases hcontrol : byte ≤ 0x1F
  · have hle : byte.toNat ≤ 31 := hcontrol
    have hhigh : (byte / 16).toNat < 16 := by
      rw [UInt8.toNat_div]
      show byte.toNat / 16 < 16
      omega
    have hlow : (byte % 16).toNat < 16 := by
      rw [UInt8.toNat_mod]
      show byte.toNat % 16 < 16
      omega
    have hfixed : ∀ other ∈ [0x3C, 0x55, 0x2B, 0x30, 0x30, 0x3E], Utf8.Ascii other := by
      unfold Utf8.Ascii
      decide +kernel
    refine .inr ⟨by unfold Utf8.Ascii; omega, by simp [shownByte, hcontrol], ?_⟩
    simp only [shownByte, hcontrol, if_true, List.forall_mem_cons, List.not_mem_nil, false_implies,
      implies_true, and_true] at hfixed ⊢
    exact ⟨hfixed.1, hfixed.2.1, hfixed.2.2.1, hfixed.2.2.2.1, hfixed.2.2.2.2.1,
      ascii_hex_digit hhigh, ascii_hex_digit hlow, hfixed.2.2.2.2.2⟩
  · exact .inl (if_neg hcontrol)

/-- Whether the text of a parse error is UTF-8 depends on the quoted bytes alone. -/
theorem ParseError.valid_what (e : ParseError) : Utf8.Valid e.toExn.what ↔ ¬ e.QuotesInvalid := by
  cases e with
  | unexpected text => exact iff_of_true (Utf8.valid_text text) id
  | token reason lastRead expected =>
      have hquote : ∀ byte ∈ textBytes "'", Utf8.Ascii byte := by
        unfold Utf8.Ascii
        decide +kernel
      have hbefore : ∀ byte ∈ textBytes "; last read: '", Utf8.Ascii byte := by
        unfold Utf8.Ascii
        decide +kernel
      have hreason : Utf8.Valid (textBytes reason) := Utf8.valid_text reason
      have hexpected : Utf8.Valid (textBytes expected) := Utf8.valid_text expected
      show Utf8.Valid (textBytes reason ++ (textBytes "; last read: '" ++
        (lastRead.flatMap shownByte ++ (textBytes "'" ++ textBytes expected)))) ↔ _
      rw [Utf8.valid_between (by decide) hbefore, Utf8.valid_between (by decide) hquote,
        Utf8.valid_escape shown_byte_cases]
      simp [QuotesInvalid, hreason, hexpected]

theorem error_response_isSome {ex : Exn} : (errorResponse ex).isSome ↔ Utf8.Valid ex.what := by
  rw [← Utf8.isSome_from_utf8]
  simp [errorResponse]

/-- Every exception of the action has a text of characters. -/
def Textual {Value : Type} (action : Except Exn Value) : Prop :=
  ∀ ex, action = .error ex → ∃ text, ex = .ofText text

namespace Textual

variable {Value Result : Type} {action : Except Exn Value} {rest : Value → Except Exn Result}

theorem ok (value : Value) : Textual (.ok value) := by
  intro ex h
  cases h

theorem error (text : String) : Textual (.error (.ofText text) : Except Exn Value) := by
  intro ex h
  cases h
  exact ⟨text, rfl⟩

theorem bind (haction : Textual action) (hrest : ∀ value, Textual (rest value)) :
    Textual (action >>= rest) := by
  intro ex h
  cases action with
  | ok value => exact hrest value ex h
  | error thrown =>
      cases h
      exact haction _ rfl

theorem valid {ex : Exn} (haction : Textual action) (h : action = .error ex) :
    Utf8.Valid ex.what := by
  obtain ⟨text, rfl⟩ := haction ex h
  exact Utf8.valid_text text

theorem get_string (j : Json) : Textual j.getString := by
  cases j with
  | str s => exact ok s
  | _ => exact error _

theorem at' (j : Json) (key : String) : Textual (j.at' key) := by
  unfold Json.at'
  split
  · split
    · exact ok _
    · exact error _
  · exact error _

theorem value (j : Json) (key default : String) : Textual (j.value Json.getString key default) := by
  unfold Json.value
  split
  · split
    · exact get_string _
    · exact ok _
  · exact error _

theorem channel (name : String) : Textual ((Channel.fromString name).mapError Exn.ofText) := by
  unfold Channel.fromString
  split
  · exact ok _
  · split
    · exact ok _
    · split
      · exact ok _
      · exact error _

/-- What is wrong with a parsed body is said in characters. -/
theorem decode_request (keyUuid : String) (j : Json) : Textual (decodeRequest keyUuid j) := by
  refine (value j _ _).bind fun _ => ?_
  refine ((at' j _).bind get_string).bind fun name => ?_
  refine (channel name).bind fun _ => ?_
  refine (value j _ _).bind fun _ => ?_
  refine ((at' j _).bind get_string).bind fun _ => ?_
  refine (value j _ _).bind fun _ => ?_
  exact ((at' j _).bind get_string).bind fun _ => ok _

end Textual

/-! ## What a request throws -/

/-- The exception of the first statement of the `try` block of `insertWithOutbox` that throws. -/
inductive CallOutcomes.StatementThrows (calls : CallOutcomes) : Exn → Prop where
  | insertNotification (ex : Exn) : calls.insertNotification = .error ex → StatementThrows calls ex
  | insertOutbox (ex : Exn) : calls.insertNotification = .ok () → calls.insertOutbox = .error ex →
      StatementThrows calls ex
  | commit (ex : Exn) : calls.insertNotification = .ok () → calls.insertOutbox = .ok () →
      calls.commit = .error ex → StatementThrows calls ex

/-- The exception that leaves the transaction of a new row. -/
inductive CallOutcomes.TransactionThrows (calls : CallOutcomes) : Exn → Prop where
  | start (ex : Exn) : calls.startTransaction = .error ex → TransactionThrows calls ex
  | rolledBack (ex : Exn) : calls.startTransaction = .ok () → calls.StatementThrows ex →
      calls.rollback = .ok () → TransactionThrows calls ex
  | rollback (caught ex : Exn) : calls.startTransaction = .ok () → calls.StatementThrows caught →
      calls.rollback = .error ex → TransactionThrows calls ex

/-- The exception that a call of the database or of the broker throws while a request is served. -/
inductive CallThrows (collate : String → String) (parser : JsonParser) (keyUuid uuid : String)
    (calls : ConnectionCalls) (req : Request) (s : Stores) : Exn → Prop where
  | lookup (input : Notification) (ex : Exn) : req.IsSubmission →
      Requests parser.parse keyUuid req.body input → calls.findByIdempotencyKey = .error ex →
      CallThrows collate parser keyUuid uuid calls req s ex
  | transaction (input : Notification) (ex : Exn) : req.IsSubmission →
      Requests parser.parse keyUuid req.body input → calls.findByIdempotencyKey = .ok () →
      s.database.findByIdempotencyKey collate input.idempotencyKey = none →
      calls.TransactionThrows ex → CallThrows collate parser keyUuid uuid calls req s ex
  | publish (input saved : Notification) (next : Stores) (ex : Exn) : req.IsSubmission →
      Requests parser.parse keyUuid req.body input →
      Saves collate calls.toCallOutcomes uuid input s saved next → calls.publish = .error ex →
      CallThrows collate parser keyUuid uuid calls req s ex
  | findById (id : List UInt8) (ex : Exn) : req.IsDetail id → calls.findById = .error ex →
      CallThrows collate parser keyUuid uuid calls req s ex
  | findByNotificationId (id : List UInt8) (n : Notification) (ex : Exn) : req.IsDetail id →
      calls.findById = .ok () → s.database.findByIdBytes collate id = some n →
      calls.findByNotificationId = .error ex → CallThrows collate parser keyUuid uuid calls req s ex
  | list (ex : Exn) : req.IsList → calls.list = .error ex →
      CallThrows collate parser keyUuid uuid calls req s ex

/-- The requests that get no answer: a body whose parse error quotes bytes that are not UTF-8, and a
call that throws an exception whose text is not UTF-8. -/
inductive Fatal (collate : String → String) (parser : JsonParser) (keyUuid uuid : String)
    (calls : ConnectionCalls) (req : Request) (s : Stores) : Prop where
  | body (e : ParseError) : req.IsSubmission → parser req.body = .error e → e.QuotesInvalid →
      Fatal collate parser keyUuid uuid calls req s
  | call (ex : Exn) : CallThrows collate parser keyUuid uuid calls req s ex →
      ¬ Utf8.Valid ex.what → Fatal collate parser keyUuid uuid calls req s

variable {config : Config} {collate : String → String} {parser : JsonParser} {keyUuid uuid : String}
  {calls : ConnectionCalls} {req : Request} {s next : Stores} {input saved : Notification}
  {ex : Exn}

/-- How the transaction of `insertWithOutbox` throws. -/
theorem insert_transaction_fails {calls : CallOutcomes} {n : Notification} :
    (∃ next, Fails (insertTransaction calls n) s ex next) ↔ calls.TransactionThrows ex := by
  unfold insertTransaction
  simp only [fails_bind, fails_try, fails_lift, ends_lift, fails_throw, fails_modify, and_false,
    exists_false, or_false]
  constructor
  · intro h
    obtain ⟨next, ⟨hstart, -⟩ | ⟨_, _, ⟨hstart, rfl⟩, caught, failed, hstatement, hrollback⟩⟩ := h
    · exact .start ex hstart
    · have hthrows : calls.StatementThrows caught := by
        rcases hstatement with ⟨hthrows, -⟩ |
            ⟨_, _, ⟨hok, -⟩, ⟨hthrows, -⟩ | ⟨_, _, ⟨hok', -⟩, hthrows, -⟩⟩
        · exact .insertNotification caught hthrows
        · exact .insertOutbox caught hok hthrows
        · exact .commit caught hok hok' hthrows
      rcases hrollback with ⟨hrollback, -⟩ | ⟨_, _, ⟨hrollback, -⟩, rfl, -⟩
      · exact .rollback caught ex hstart hthrows hrollback
      · exact .rolledBack caught hstart hthrows hrollback
  · have hstatement : ∀ caught, calls.StatementThrows caught →
        (calls.insertNotification = .error caught ∧ s = s ∨
          ∃ value middle, (calls.insertNotification = .ok value ∧ s = middle) ∧
            (calls.insertOutbox = .error caught ∧ middle = s ∨
              ∃ value last, (calls.insertOutbox = .ok value ∧ middle = last) ∧
                calls.commit = .error caught ∧ last = s)) := by
      intro caught h
      cases h with
      | insertNotification hthrows => exact .inl ⟨hthrows, rfl⟩
      | insertOutbox hok hthrows => exact .inr ⟨_, _, ⟨hok, rfl⟩, .inl ⟨hthrows, rfl⟩⟩
      | commit hok hok' hthrows =>
          exact .inr ⟨_, _, ⟨hok, rfl⟩, .inr ⟨_, _, ⟨hok', rfl⟩, hthrows, rfl⟩⟩
    intro h
    cases h with
    | start _ hstart => exact ⟨s, .inl ⟨hstart, rfl⟩⟩
    | rolledBack _ hstart hthrows hrollback =>
        exact ⟨s, .inr ⟨_, s, ⟨hstart, rfl⟩, ex, s, hstatement ex hthrows,
          .inr ⟨_, s, ⟨hrollback, rfl⟩, rfl, rfl⟩⟩⟩
    | rollback caught _ hstart hthrows hrollback =>
        exact ⟨s, .inr ⟨_, s, ⟨hstart, rfl⟩, caught, s, hstatement caught hthrows,
          .inl ⟨hrollback, rfl⟩⟩⟩

/-- How `insertWithOutbox` throws. -/
theorem insert_with_outbox_fails {calls : CallOutcomes} :
    (∃ next, Fails (insertWithOutbox collate calls uuid input) s ex next) ↔
      calls.findByIdempotencyKey = .error ex ∨ (calls.findByIdempotencyKey = .ok () ∧
        s.database.findByIdempotencyKey collate input.idempotencyKey = none ∧
        calls.TransactionThrows ex) := by
  have hlookup_or : ∀ next, Fails (insertWithOutbox collate calls uuid input) s ex next ↔
      calls.findByIdempotencyKey = .error ex ∧ s = next ∨ calls.findByIdempotencyKey = .ok () ∧
        s.database.findByIdempotencyKey collate input.idempotencyKey = none ∧
          Fails (insertTransaction calls (input.inserted uuid)) s ex next := by
    intro next
    unfold insertWithOutbox
    simp only [fails_bind, fails_lift, ends_lift, fails_get, ends_get, false_or]
    cases hfind : s.database.findByIdempotencyKey collate input.idempotencyKey with
    | none => simp [hfind, fails_bind, Unique.exists_iff, -bind_pure_comp]
    | some existing => simp [hfind]
  simp only [hlookup_or]
  constructor
  · intro h
    obtain ⟨next, ⟨hlookup, -⟩ | ⟨hlookup, hnone, hthrows⟩⟩ := h
    · exact .inl hlookup
    · exact .inr ⟨hlookup, hnone, insert_transaction_fails.mp ⟨next, hthrows⟩⟩
  · intro h
    rcases h with hlookup | ⟨hlookup, hnone, hthrows⟩
    · exact ⟨s, .inl ⟨hlookup, rfl⟩⟩
    · obtain ⟨next, hfails⟩ := insert_transaction_fails.mpr hthrows
      exact ⟨next, .inr ⟨hlookup, hnone, hfails⟩⟩

/-- `insertWithOutbox` returns exactly what it saves. -/
theorem insert_with_outbox_ends {calls : CallOutcomes} :
    Ends (insertWithOutbox collate calls uuid input) s saved next ↔
      Saves collate calls uuid input s saved next := by
  rcases insert_with_outbox_cases collate calls uuid input s with
    ⟨saved', next', hsaves, hrun⟩ | ⟨hnot, ex, hrun⟩
  · have hends : Ends (insertWithOutbox collate calls uuid input) s saved' next' := hrun
    constructor
    · intro h
      obtain ⟨rfl, rfl⟩ := hends.unique h
      exact hsaves
    · intro h
      obtain ⟨rfl, rfl⟩ := hsaves.unique h
      exact hends
  · have hfails : Fails (insertWithOutbox collate calls uuid input) s ex s := hrun
    exact iff_of_false (fun h => h.not_fails hfails) (hnot saved next)

/-- A publish throws what the channel throws. -/
theorem publish_to_exchange_fails {calls : CallOutcomes} :
    Fails (publishToExchange config calls saved) s ex next ↔ calls.publish = .error ex ∧
      s = next := by
  unfold publishToExchange
  simp only [fails_bind, fails_lift]
  constructor
  · intro h
    rcases h with h | ⟨accepted, _, -, h⟩
    · exact h
    · cases accepted <;> simp at h
  · exact .inl

/-- How the submission of a notification throws: its body cannot be read, or a call throws. -/
theorem accept_notification_fails (hsubmission : req.IsSubmission) :
    (∃ next, Fails (acceptNotification config collate parser.parse keyUuid uuid calls.toCallOutcomes
      req.body) s ex next) ↔
      (∃ e, parser req.body = .error e ∧ ex = e.toExn) ∨
      (∃ j, parser req.body = .ok j ∧ decodeRequest keyUuid j = .error ex) ∨
      CallThrows collate parser keyUuid uuid calls req s ex := by
  have hparse : ∀ j, parser.parse req.body = .ok j ↔ parser req.body = .ok j := by
    intro j
    unfold JsonParser.parse
    cases parser req.body <;> simp [Except.mapError]
  have hreject : parser.parse req.body = .error ex ↔ ∃ e, parser req.body = .error e ∧
      ex = e.toExn := by
    unfold JsonParser.parse
    cases parser req.body <;> simp [Except.mapError, eq_comm]
  unfold acceptNotification
  simp only [fails_bind, fails_lift, ends_lift, hparse, hreject, insert_with_outbox_ends,
    publish_to_exchange_fails, fails_pure, and_false, exists_false, or_false]
  constructor
  · intro h
    obtain ⟨next, ⟨hparsed, -⟩ | ⟨j, _, ⟨hj, rfl⟩, hrest⟩⟩ := h
    · exact .inl hparsed
    · rcases hrest with ⟨hdecode, -⟩ | ⟨input, _, ⟨hinput, rfl⟩, hcall⟩
      · exact .inr (.inl ⟨j, hj, hdecode⟩)
      · have hrequest : Requests parser.parse keyUuid req.body input :=
          ⟨j, (hparse j).mpr hj, hinput⟩
        refine .inr (.inr ?_)
        rcases hcall with hinsert | ⟨saved, middle, hsaves, hpublish, -⟩
        · rcases insert_with_outbox_fails.mp ⟨next, hinsert⟩ with hlookup |
              ⟨hlookup, hnone, hthrows⟩
          · exact .lookup input ex hsubmission hrequest hlookup
          · exact .transaction input ex hsubmission hrequest hlookup hnone hthrows
        · exact .publish input saved middle ex hsubmission hrequest hsaves hpublish
  · have hdecoded : ∀ input, Requests parser.parse keyUuid req.body input →
        ∃ j, parser req.body = .ok j ∧ decodeRequest keyUuid j = .ok input := by
      rintro input ⟨j, hj, hinput⟩
      exact ⟨j, (hparse j).mp hj, hinput⟩
    have hget : req.method ≠ .get := by simp [hsubmission.1]
    intro h
    rcases h with hparsed | ⟨j, hj, hdecode⟩ | hcall
    · exact ⟨s, .inl ⟨hparsed, rfl⟩⟩
    · exact ⟨s, .inr ⟨j, s, ⟨hj, rfl⟩, .inl ⟨hdecode, rfl⟩⟩⟩
    · cases hcall with
      | lookup input _ _ hrequest hlookup =>
          obtain ⟨next, hfails⟩ := insert_with_outbox_fails.mpr (.inl hlookup)
          obtain ⟨j, hj, hinput⟩ := hdecoded input hrequest
          exact ⟨next, .inr ⟨j, s, ⟨hj, rfl⟩, .inr ⟨input, s, ⟨hinput, rfl⟩, .inl hfails⟩⟩⟩
      | transaction input _ _ hrequest hlookup hnone hthrows =>
          obtain ⟨next, hfails⟩ := insert_with_outbox_fails.mpr (.inr ⟨hlookup, hnone, hthrows⟩)
          obtain ⟨j, hj, hinput⟩ := hdecoded input hrequest
          exact ⟨next, .inr ⟨j, s, ⟨hj, rfl⟩, .inr ⟨input, s, ⟨hinput, rfl⟩, .inl hfails⟩⟩⟩
      | publish input saved next _ _ hrequest hsaves hpublish =>
          obtain ⟨j, hj, hinput⟩ := hdecoded input hrequest
          exact ⟨next, .inr ⟨j, s, ⟨hj, rfl⟩, .inr ⟨input, s, ⟨hinput, rfl⟩,
            .inr ⟨saved, next, hsaves, hpublish, rfl⟩⟩⟩⟩
      | findById _ _ hdetail => exact absurd hdetail.1 hget
      | findByNotificationId _ _ _ hdetail => exact absurd hdetail.1 hget
      | list _ hlist => exact absurd hlist.1 hget

/-- How a detail request throws. -/
theorem detail_fails {id : List UInt8} (hdetail : req.IsDetail id) :
    (∃ next, Fails (HttpServer.detail collate calls id) s ex next) ↔
      CallThrows collate parser keyUuid uuid calls req s ex := by
  have hanswer : ∀ next, Fails (match s.database.findByIdBytes collate id with
      | none => return { status := 404, body := .obj [("error", .str "not found")] }
      | some n => do
          calls.findByNotificationId
          let attempts := (← get).database.findByNotificationIdBytes collate id
          return { status := 200, body := detailJson n attempts }
      : Action Response) s ex next ↔
        ∃ n, s.database.findByIdBytes collate id = some n ∧ calls.findByNotificationId = .error ex ∧
          s = next := by
    intro next
    cases s.database.findByIdBytes collate id with
    | none => simp
    | some n =>
        simp only [fails_bind, fails_lift, fails_get, fails_pure, and_false, exists_false, or_false]
        simp
  unfold HttpServer.detail
  simp only [fails_bind, fails_lift, ends_lift, fails_get, ends_get, false_or]
  constructor
  · intro h
    obtain ⟨next, ⟨hfind, -⟩ | ⟨_, _, ⟨hfind, rfl⟩, _, _, ⟨rfl, rfl⟩, hfails⟩⟩ := h
    · exact .findById id ex hdetail hfind
    · obtain ⟨n, hrow, hattempts, -⟩ := (hanswer next).mp hfails
      exact .findByNotificationId id n ex hdetail hfind hrow hattempts
  · have hsame : ∀ {other}, req.IsDetail other → other = id := by
      intro other hother
      exact List.append_cancel_left (hother.2.symm.trans hdetail.2)
    intro h
    cases h with
    | lookup _ _ hsubmission => exact absurd (hdetail.1.symm.trans hsubmission.1) (by simp)
    | transaction _ _ hsubmission => exact absurd (hdetail.1.symm.trans hsubmission.1) (by simp)
    | publish _ _ _ _ hsubmission => exact absurd (hdetail.1.symm.trans hsubmission.1) (by simp)
    | findById _ _ hother hfind => exact ⟨s, .inl ⟨hfind, rfl⟩⟩
    | findByNotificationId other n _ hother hfind hrow hattempts =>
        obtain rfl := hsame hother
        exact ⟨s, .inr ⟨_, s, ⟨hfind, rfl⟩, s, s, ⟨rfl, rfl⟩,
          (hanswer s).mpr ⟨n, hrow, hattempts, rfl⟩⟩⟩
    | list _ hlist => exact absurd ⟨id, hdetail.2.symm⟩ hlist.2.2

/-- How a list request throws. -/
theorem list_fails (hlist : req.IsList) : (∃ next, Fails (HttpServer.list calls) s ex next) ↔
    CallThrows collate parser keyUuid uuid calls req s ex := by
  unfold HttpServer.list
  simp only [fails_bind, fails_lift, ends_lift, fails_get, ends_get, fails_pure, and_false,
    exists_false, or_false]
  constructor
  · intro h
    obtain ⟨next, hthrows, -⟩ := h
    exact .list ex hlist hthrows
  · intro h
    cases h with
    | lookup _ _ hsubmission => exact absurd (hlist.1.symm.trans hsubmission.1) (by simp)
    | transaction _ _ hsubmission => exact absurd (hlist.1.symm.trans hsubmission.1) (by simp)
    | publish _ _ _ _ hsubmission => exact absurd (hlist.1.symm.trans hsubmission.1) (by simp)
    | findById id _ hdetail => exact absurd ⟨id, hdetail.2.symm⟩ hlist.2.2
    | findByNotificationId id _ _ hdetail => exact absurd ⟨id, hdetail.2.symm⟩ hlist.2.2
    | list _ _ hthrows => exact ⟨s, hthrows, rfl⟩

/-- A target that begins like a detail or a list is not that of the health check. -/
theorem not_healthz (h : submitTarget <+: req.target) : req.target ≠ textBytes "/healthz" := by
  intro htarget
  rw [htarget] at h
  exact absurd h (by decide +kernel)

theorem submit_prefix_of_detail {target : List UInt8} (h : detailPrefix <+: target) :
    submitTarget <+: target :=
  .trans (by decide +kernel) h

/-- How a request throws. -/
theorem route_fails :
    (∃ next, Fails (HttpServer.route config collate parser keyUuid uuid calls req) s ex next) ↔
      (req.IsSubmission ∧ ∃ e, parser req.body = .error e ∧ ex = e.toExn) ∨
      (req.IsSubmission ∧ ∃ j, parser req.body = .ok j ∧ decodeRequest keyUuid j = .error ex) ∨
      CallThrows collate parser keyUuid uuid calls req s ex := by
  unfold HttpServer.route
  have hquiet : ¬ req.IsSubmission → (∀ id, ¬ req.IsDetail id) → ¬ req.IsList →
      ¬ CallThrows collate parser keyUuid uuid calls req s ex := by
    intro hsubmission hdetail hlist h
    cases h with
    | lookup _ _ h | transaction _ _ h | publish _ _ _ _ h => exact hsubmission h
    | findById id _ h | findByNotificationId id _ _ h => exact hdetail id h
    | list _ h => exact hlist h
  by_cases hhealth : req.method = .get ∧ req.target = textBytes "/healthz"
  · rw [if_pos hhealth]
    have hnot : ¬ submitTarget <+: req.target := fun h => not_healthz h hhealth.2
    have hsubmission : ¬ req.IsSubmission := fun h => absurd (hhealth.1.symm.trans h.1) (by simp)
    simp only [fails_pure, exists_false, hsubmission, false_and, false_or, false_iff]
    refine hquiet hsubmission (fun id h => hnot ?_) fun h => hnot h.2.1
    exact submit_prefix_of_detail ⟨id, h.2.symm⟩
  · rw [if_neg hhealth]
    by_cases hpost : req.method = .post ∧ req.target = submitTarget
    · have hsubmission : req.IsSubmission := hpost
      rw [if_pos hpost]
      simp only [fails_bind, fails_pure, and_false, exists_false, or_false, hsubmission, true_and]
      exact accept_notification_fails hsubmission
    · have hsubmission : ¬ req.IsSubmission := hpost
      rw [if_neg hpost]
      simp only [hsubmission, false_and, false_or]
      by_cases hdetail : req.method = .get ∧ detailPrefix <+: req.target
      · rw [if_pos hdetail]
        obtain ⟨id, hid⟩ := hdetail.2
        rw [← hid, List.drop_left]
        exact detail_fails ⟨hdetail.1, hid.symm⟩
      · rw [if_neg hdetail]
        by_cases hlist : req.method = .get ∧ submitTarget <+: req.target
        · rw [if_pos hlist]
          exact list_fails ⟨hlist.1, hlist.2, fun h => hdetail ⟨hlist.1, h⟩⟩
        · rw [if_neg hlist]
          simp only [fails_pure, exists_false, false_iff]
          refine hquiet hsubmission (fun id h => hdetail ⟨h.1, id, h.2.symm⟩) fun h =>
            hlist ⟨h.1, h.2.1⟩

/-- For every request, every outcome of the calls it makes and everything that is stored: the
handler builds a response exactly if the request is not one of `Fatal`. -/
theorem answered_iff (config : Config) (collate : String → String) (parser : JsonParser)
    (keyUuid uuid : String) (calls : ConnectionCalls) (req : Request) (s : Stores) :
    (HttpServer.handleConnection config collate parser keyUuid uuid calls req s).1.isSome ↔
      ¬ Fatal collate parser keyUuid uuid calls req s := by
  have hfatal : ∀ ex, ¬ Utf8.Valid ex.what →
      (∃ next, Fails (HttpServer.route config collate parser keyUuid uuid calls req) s ex next) →
      Fatal collate parser keyUuid uuid calls req s := by
    intro ex hinvalid hfails
    rcases route_fails.mp hfails with ⟨hsubmission, e, he, rfl⟩ | ⟨-, j, -, hdecode⟩ | hcall
    · exact .body e hsubmission he (not_not.mp fun h => hinvalid (e.valid_what.mpr h))
    · exact absurd ((Textual.decode_request keyUuid j).valid hdecode) hinvalid
    · exact .call ex hcall hinvalid
  have hfails : Fatal collate parser keyUuid uuid calls req s → ∃ ex, ¬ Utf8.Valid ex.what ∧
      ∃ next, Fails (HttpServer.route config collate parser keyUuid uuid calls req) s ex next := by
    intro h
    cases h with
    | body e hsubmission he hquotes =>
        exact ⟨e.toExn, fun hvalid => e.valid_what.mp hvalid hquotes,
          route_fails.mpr (.inl ⟨hsubmission, e, he, rfl⟩)⟩
    | call ex hcall hinvalid => exact ⟨ex, hinvalid, route_fails.mpr (.inr (.inr hcall))⟩
  unfold HttpServer.handleConnection
  rcases ends_or_fails (HttpServer.route config collate parser keyUuid uuid calls req) s with
    ⟨response, next, hends⟩ | ⟨ex, next, hthrows⟩
  · have hrun : (HttpServer.route config collate parser keyUuid uuid calls req).run s =
        (.ok response, next) := hends
    simp only [hrun, Option.isSome_some, true_iff]
    intro h
    obtain ⟨ex, -, next', hthrows⟩ := hfails h
    exact hends.not_fails hthrows
  · have hrun : (HttpServer.route config collate parser keyUuid uuid calls req).run s =
        (.error ex, next) := hthrows
    simp only [hrun, error_response_isSome]
    constructor
    · intro hvalid h
      obtain ⟨ex', hinvalid, next', hthrows'⟩ := hfails h
      obtain ⟨rfl, -⟩ := hthrows.unique hthrows'
      exact hinvalid hvalid
    · intro h
      by_contra hinvalid
      exact h (hfatal ex hinvalid ⟨next, hthrows⟩)

/-- The loop goes on as long as no request is fatal. -/
theorem accept_loop_alive (connections : List HttpServer.Connection) (s : Stores)
    (h : ∀ connection ∈ connections, ∀ req ∈ connection.request, ∀ s,
      ¬ Fatal collate parser connection.keyUuid connection.uuid connection.calls req s) :
    (HttpServer.acceptLoop config collate parser connections s).isSome := by
  induction connections generalizing s with
  | nil => rfl
  | cons connection rest ih =>
      have hrest := fun s => ih s fun other hother => h other (by simp [hother])
      unfold HttpServer.acceptLoop
      cases hrequest : connection.request with
      | none => exact hrest s
      | some req =>
          have hanswered := (answered_iff config collate parser connection.keyUuid connection.uuid
            connection.calls req s).mpr (h connection (by simp) req hrequest s)
          cases hcase : HttpServer.handleConnection config collate parser connection.keyUuid
              connection.uuid connection.calls req s with
          | mk response next =>
              rw [hcase] at hanswered
              cases response with
              | none => exact absurd hanswered (by simp)
              | some response => simpa [hcase] using hrest next

/-- The loop ends at the first request without an answer. -/
theorem accept_loop_ends {connection : HttpServer.Connection} {rest : List HttpServer.Connection}
    (hrequest : connection.request = some req)
    (hnone : (HttpServer.handleConnection config collate parser connection.keyUuid connection.uuid
      connection.calls req s).1 = none) :
    HttpServer.acceptLoop config collate parser (connection :: rest) s = none := by
  unfold HttpServer.acceptLoop
  simp only [hrequest]
  split
  · rename_i hcase
    exact absurd ((congrArg Prod.fst hcase).symm.trans hnone) (by simp)
  · rfl

/-- Where and why the parser stops at a byte that begins no JSON value. -/
def invalidLiteral : String :=
  "[json.exception.parse_error.101] parse error at line 1, column 1: syntax error while parsing " ++
    "value - invalid literal"

/-- The parser on bodies that begin with such a byte. -/
def rejectingParser : JsonParser := fun body => .error (.token invalidLiteral (body.take 1) "")

/-- `POST /api/notifications` with the single byte 0xFF as its body. -/
def strayByte : Request := { method := .post, target := submitTarget, body := [0xFF] }

def strayConnection : HttpServer.Connection :=
  { request := some strayByte, keyUuid := "key", uuid := "id", calls := {} }

/-- The answer to it throws, and the process is gone. -/
theorem request_unanswered :
    (HttpServer.handleConnection {} id rejectingParser "key" "id" {} strayByte {}).1 = none ∧
      HttpServer.acceptLoop {} id rejectingParser [strayConnection] {} = none := by
  have hinvalid : ¬ Utf8.Valid [0xFF] := fun hvalid => absurd hvalid.first_byte (by decide)
  have hfatal : Fatal id rejectingParser "key" "id" {} strayByte {} :=
    .body (.token invalidLiteral [0xFF] "") ⟨rfl, rfl⟩ rfl hinvalid
  have hnone : (HttpServer.handleConnection {} id rejectingParser "key" "id" {} strayByte {}).1 =
      none := by
    have hiff := answered_iff {} id rejectingParser "key" "id" {} strayByte {}
    exact Option.not_isSome_iff_eq_none.mp fun h => hiff.mp h hfatal
  have hrequest : strayConnection.request = some strayByte := rfl
  exact ⟨hnone, accept_loop_ends hrequest hnone⟩

end NotificationDelivery
