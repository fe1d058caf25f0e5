import SchemaAtlas.Proofs.Server.Lines

/-!
# Replies and the ids of requests

Lines are answered one by one in their order, each at most once, and none ends the service. A
request is answered under its own id, except where it calls a tool and the call fails: the reply
that reports the failure has no id, so the client cannot tell which of its requests it is about.

* `member?_id`        what is sent has the id of its reply
* `answered_receive`  one line
* `answered_serve`    a line among others
-/

namespace SchemaAtlas.Server

/-- What is sent has the id of the reply, with its keys in order. -/
theorem Reply.member?_id (reply : Reply) :
    reply.toJson.member? "id" = some reply.id.sortKeys := by
  -- the id stands before or behind what the outcome is called
  have hid : "id" < "jsonrpc" := by decide
  have herror : "error" < "id" := by decide
  have hresult : ¬"result" < "id" ∧ ¬"result" < "jsonrpc" := by decide
  cases h : reply.outcome with
  | ok result =>
    simp only [Reply.toJson, h, Json.sortKeys, Json.sortKeysMembers, Json.sortMembers,
      List.foldl_cons, List.foldl_nil, Json.insertMember, hid, hresult, if_true, if_false]
    rfl
  | error refusal =>
    simp only [Reply.toJson, h, Json.sortKeys, Json.sortKeysMembers, Json.sortMembers,
      List.foldl_cons, List.foldl_nil, Json.insertMember, hid, herror, if_true]
    rfl

/-- Why the call in a message fails, if it calls a tool and the call fails. -/
def failure? (server : Server) (disk : Disk) (message : Message) : Option CallError :=
  match message.call? with
  | some params =>
    match (server.call disk params).1 with
    | .ok _ => none
    | .error cause => some cause
  | none => none

/-- Whether this is what a server answers to a line. -/
structure Answered (server : Server) (disk : Disk) (line : String) (answer : Option Reply) :
    Prop where
  /-- A request is answered under its id, unless it calls a tool and the call fails. -/
  request : ∀ message id, Message.ofText? line = some message → message.id = some id →
    server.failure? disk message = none → ∃ outcome, answer = some ⟨id, outcome⟩
  /-- A call that fails is reported, but not under the id of its request. -/
  failed : ∀ message id cause, Message.ofText? line = some message → message.id = some id →
    server.failure? disk message = some cause →
    answer = some ⟨.null, .error (.call cause)⟩ ∧ id ≠ .null
  /-- A message without an id is not answered. -/
  notification : ∀ message, Message.ofText? line = some message → message.id = none →
    answer = none
  /-- Neither is a blank line. -/
  blank : IsBlank line → answer = none
  /-- A line that holds no message is reported without an id. -/
  malformed : ¬IsBlank line → Message.ofText? line = none →
    answer = some ⟨.null, .error .malformed⟩
  /-- What is sent has the id of the reply. -/
  sent : ∀ reply ∈ answer, reply.toJson.member? "id" = some reply.id.sortKeys

variable {server : Server} {disk : Disk} {message : Message} {id : Json}

/-- The reply to a call that fails. -/
theorem respond_of_failure {cause : CallError} (h : server.failure? disk message = some cause) :
    (server.respond disk id message).1 = ⟨.null, .error (.call cause)⟩ := by
  unfold failure? at h
  split at h
  · next hcall =>
    split at h
    · cases h
    · next hresult =>
      obtain rfl := Option.some.inj h
      rw [respond_of_call hcall, hresult, replyToCall]
  · cases h

/-- The reply to any other request. -/
theorem respond_of_no_failure (h : server.failure? disk message = none) :
    ∃ outcome, (server.respond disk id message).1 = ⟨id, outcome⟩ := by
  unfold failure? at h
  split at h
  · next hcall =>
    split at h
    · next result hresult =>
      exact ⟨.ok result, by rw [respond_of_call hcall, hresult, replyToCall]⟩
    · cases h
  · next hcall =>
    obtain ⟨outcome, hrespond⟩ := respond_of_not_call hcall
    exact ⟨outcome, by rw [hrespond]⟩

/-- What a line is answered with. -/
theorem answered_receive (server : Server) (disk : Disk) (line : String) :
    server.Answered disk line (server.receive disk line).1 where
  request message id h hid hfailure := by
    obtain ⟨outcome, hrespond⟩ := respond_of_no_failure hfailure
    exact ⟨outcome, by rw [receive_of_request h hid, hrespond]⟩
  failed message id cause h hid hfailure := by
    rw [receive_of_request h hid, respond_of_failure hfailure]
    exact ⟨rfl, Message.id_ne_null h hid⟩
  notification message h hid := by rw [receive_of_notification h hid]
  blank h := by rw [receive_of_blank h]
  malformed hblank h := by rw [receive_of_malformed hblank h]
  sent reply _ := reply.member?_id

/-- Wherever a line stands among others, it is answered in its place, and the lines behind it are
answered as well. -/
theorem answered_serve (server : Server) (before after : List (Disk × String)) (disk : Disk)
    (line : String) :
    ∃ answer, (server.serve before).2.Answered disk line answer ∧
      (server.serve (before ++ (disk, line) :: after)).1 =
        (server.serve before).1 ++ answer.toList ++
          ((server.serve (before ++ [(disk, line)])).2.serve after).1 := by
  refine ⟨_, answered_receive _ disk line, ?_⟩
  simp only [serve_append, serve, List.append_assoc]

/-- The request calls a tool that there is not. It has an id, and its only reply has none. -/
theorem answered_serve_stray :
    (Message.ofText? (callLine "nope")).bind (fun message => message.id.map Json.compact) =
      some "7" ∧
    ((start ⟨⟨"/w"⟩, {}, ⟨"/w/index.graphql"⟩⟩ (.directory [])).serve
        [(.directory [], callLine "nope")]).1.map (fun reply => reply.toJson.compact) =
      ["\x7b\"error\":\x7b\"code\":-32603," ++
        "\"message\":\"Internal error: Unknown tool: nope\"\x7d," ++
        "\"id\":null,\"jsonrpc\":\"2.0\"\x7d"] := by
  decide +kernel

end SchemaAtlas.Server
