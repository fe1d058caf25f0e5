import Mathlib.Data.List.TakeWhile
import SchemaAtlas.Proofs.Scan.Cancellation
import SchemaAtlas.Server.Session

/-!
# What a line does to a server

Once and for all the cases of a line: it is blank, or it holds no message, or a notification, or a
request; and a request calls a tool or does not.

* `Message.ofText?_of_blank`                 a blank line holds no message
* `Message.id_ne_null`                       the id of a request says something
* `respond_of_call`, `respond_of_not_call`   the two kinds of requests
* `receive_of_request` and its like          the kinds of lines
* `serve_append`                             lines in two parts
-/

namespace SchemaAtlas.Server

/-! ## Blank lines -/

/-- No character of a numeral is blank. -/
theorem isDigit_of_isBlank {c : Char} (h : Text.isBlank c = true) :
    c.isDigit = false ∧ c ≠ '-' := by
  have hranges : ∃ range ∈ Text.blankRanges, range.1 ≤ c.toNat ∧ c.toNat ≤ range.2 := by
    simpa [Text.isBlank, Text.inRanges] using h
  -- no blank lies between the space and the next line control
  have hbound : c.toNat ≤ 0x20 ∨ 0x85 ≤ c.toNat := by
    simp [Text.blankRanges] at hranges
    omega
  constructor
  · rw [Bool.eq_false_iff]
    intro hdigit
    simp only [Char.isDigit, Bool.and_eq_true, decide_eq_true_eq, ge_iff_le,
      UInt32.le_iff_toNat_le] at hdigit
    obtain ⟨hlow, hhigh⟩ := hdigit
    change 48 ≤ c.toNat at hlow
    change c.toNat ≤ 57 at hhigh
    omega
  · rintro rfl
    simp at hbound

/-- No token starts with a blank character. -/
theorem lexeme?_of_isBlank {c : Char} (h : Text.isBlank c = true) (rest : List Char) :
    Json.Token.lexeme? c rest = none := by
  obtain ⟨hdigit, hminus⟩ := isDigit_of_isBlank h
  unfold Json.Token.lexeme?
  split
  case h_11 => simp [Json.Token.numeral?, Json.Token.whole?, Json.Token.digits, hdigit, hminus]
  all_goals exact absurd h (by decide)

/-- A blank text has no tokens, and some blank texts are none that has tokens. -/
theorem scan?_of_blank {cs : List Char} (h : ∀ c ∈ cs, Text.isBlank c = true) :
    Json.Token.scan? cs = none ∨ Json.Token.scan? cs = some [] := by
  induction cs with
  | nil => exact .inr (by rw [Json.Token.scan?])
  | cons c cs ih =>
    obtain ⟨hc, hcs⟩ := List.forall_mem_cons.1 h
    rw [Json.Token.scan?]
    cases Json.Token.isBlank c with
    | true => simpa using ih hcs
    | false => simp [lexeme?_of_isBlank hc]

/-- A text of which nothing is left without blanks is blank. -/
theorem forall_isBlank_of_trim {cs : List Char} (h : Text.trim cs = []) :
    ∀ c ∈ cs, Text.isBlank c = true := by
  rw [Text.trim, List.reverse_eq_nil_iff, List.dropWhile_eq_nil_iff] at h
  rw [← List.dropWhile_eq_nil_iff]
  -- the first character that is left would not be blank
  by_contra hne
  have hhead := List.head_dropWhile_not Text.isBlank hne
  rw [h _ (List.mem_reverse.2 (List.head_mem hne))] at hhead
  cases hhead

/-- Whether a line is blank. -/
abbrev IsBlank (line : String) : Prop :=
  (Text.trim line.toList).isEmpty = true

/-- A blank line holds no message. -/
theorem Message.ofText?_of_blank {line : String} (h : IsBlank line) :
    Message.ofText? line = none := by
  have hblank := forall_isBlank_of_trim (List.isEmpty_iff.1 h)
  unfold Message.ofText? Json.Form.ofText?
  rcases scan?_of_blank hblank with hscan | hscan
  · simp [hscan]
  · simp [hscan, Json.Form.value?]

/-- A line that holds a message is not blank. -/
theorem not_isBlank_of_message {line : String} {message : Message}
    (h : Message.ofText? line = some message) : ¬IsBlank line := by
  intro hblank
  rw [Message.ofText?_of_blank hblank] at h
  cases h

/-! ## The id of a request -/

/-- Only the word for nothing has nothing as its value. -/
theorem toJson?_ne_null {form : Json.Form} (h : form.isNull = false) (levels : Nat) :
    form.toJson? levels ≠ some .null := by
  cases form with
  | scalar value =>
    cases value with
    | null => cases h
    | bool flag => simp [Json.Form.toJson?, Json.Scalar.value?]
    | number numeral =>
      simp only [Json.Form.toJson?, Json.Scalar.value?, Json.Numeral.value?]
      split_ifs <;> simp
    | string pieces => simp [Json.Form.toJson?, Json.Scalar.value?]
  | array items => cases levels <;> simp [Json.Form.toJson?]
  | object members => cases levels <;> simp [Json.Form.toJson?]

/-- The value of an optional field is not null. -/
theorem optionalField_ne_null {levels : Nat} {form : Option Json.Form} {value : Json}
    (h : optionalField (Json.Form.toJson? levels) form = some (some value)) : value ≠ .null := by
  unfold optionalField at h
  split at h
  · cases h
  · split at h
    · cases h
    · next hnull =>
      rintro rfl
      obtain ⟨_, hvalue, hsome⟩ := Option.map_eq_some_iff.1 h
      obtain rfl := Option.some.inj hsome
      exact toJson?_ne_null (by simpa using hnull) levels hvalue

/-- A message whose id is null counts as one without an id. -/
theorem Message.id_ne_null {line : String} {message : Message} {id : Json}
    (h : Message.ofText? line = some message) (hid : message.id = some id) : id ≠ .null := by
  obtain ⟨form, -, hform⟩ := Option.bind_eq_some_iff.1 h
  simp only [Message.ofForm?, Option.bind_eq_bind, Option.bind_eq_some_iff] at hform
  obtain ⟨fields, -, hmessage⟩ := hform
  split at hmessage
  · simp only [Option.bind_eq_some_iff] at hmessage
    obtain ⟨_, -, _, hfield, _, -, _, -, _, -, _, -, hmessage⟩ := hmessage
    obtain rfl := Option.some.inj hmessage
    obtain rfl := hid
    exact optionalField_ne_null hfield
  · cases hmessage

/-! ## Kinds of requests -/

/-- The parameters of a message that calls a tool. -/
def Message.call? (message : Message) : Option Json :=
  if message.method = some "tools/call" then message.params else none

/-- The reply to a request that calls a tool, by what the call comes to: only a call that succeeds
is answered under the id of the request. -/
def replyToCall (id : Json) : Except CallError Json → Reply
  | .ok result => ⟨id, .ok result⟩
  | .error cause => ⟨.null, .error (.call cause)⟩

variable {server : Server} {disk : Disk} {line : String} {message : Message} {id params : Json}

/-- A call is answered by what the tool says. -/
theorem respond_of_call (h : message.call? = some params) :
    server.respond disk id message =
      (replyToCall id (server.call disk params).1, (server.call disk params).2) := by
  unfold Message.call? at h
  split at h
  · next hmethod =>
    simp only [respond, hmethod, h]
    split
    · next hcall => rw [hcall, replyToCall]
    · next hcall => rw [hcall, replyToCall]
  · cases h

/-- A request that calls no tool is answered whatever the server and the files are, and leaves the
server as it is. -/
theorem respond_of_not_call (h : message.call? = none) :
    ∃ outcome, ∀ (server : Server) (disk : Disk) (id : Json),
      server.respond disk id message = (⟨id, outcome⟩, server) := by
  unfold Message.call? at h
  simp only [respond]
  -- the answer to every other method is fixed
  split
  · exact ⟨_, fun _ _ _ => rfl⟩
  · exact ⟨_, fun _ _ _ => rfl⟩
  · next hmethod =>
    rw [if_pos hmethod] at h
    rw [h]
    exact ⟨_, fun _ _ _ => rfl⟩
  · exact ⟨_, fun _ _ _ => rfl⟩
  · exact ⟨_, fun _ _ _ => rfl⟩

/-- A line with a request that calls a tool, without arguments. -/
def callLine (tool : String) : String :=
  "\x7b\"jsonrpc\":\"2.0\",\"id\":7,\"method\":\"tools/call\"," ++
    "\"params\":\x7b\"name\":\"" ++ tool ++ "\"\x7d\x7d"

/-! ## Kinds of lines -/

/-- A blank line is passed over. -/
theorem receive_of_blank (h : IsBlank line) : server.receive disk line = (none, server) := by
  rw [receive, if_pos h]

/-- A line that holds no message is answered with an error. -/
theorem receive_of_malformed (hblank : ¬IsBlank line) (h : Message.ofText? line = none) :
    server.receive disk line = (some ⟨.null, .error .malformed⟩, server) := by
  rw [receive, if_neg hblank]
  simp only [h]

/-- A notification is not answered. -/
theorem receive_of_notification (h : Message.ofText? line = some message)
    (hid : message.id = none) : server.receive disk line = (none, server) := by
  rw [receive, if_neg (not_isBlank_of_message h)]
  simp only [h, hid]

/-- A request is answered under its id. -/
theorem receive_of_request (h : Message.ofText? line = some message)
    (hid : message.id = some id) :
    server.receive disk line =
      (some (server.respond disk id message).1, (server.respond disk id message).2) := by
  rw [receive, if_neg (not_isBlank_of_message h)]
  simp only [h, hid]

/-! ## Lines one after another -/

/-- Lines in two parts are served part by part. -/
theorem serve_append (server : Server) (before after : List (Disk × String)) :
    server.serve (before ++ after) =
      ((server.serve before).1 ++ ((server.serve before).2.serve after).1,
        ((server.serve before).2.serve after).2) := by
  induction before generalizing server with
  | nil => rfl
  | cons input before ih =>
    simp only [List.cons_append, serve, ih, List.append_assoc]

end SchemaAtlas.Server
