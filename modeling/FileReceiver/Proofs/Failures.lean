/-
# What a failure tells

Whatever a handler refuses or fails to do is answered by an object that holds
a message, and so is a path that leads nowhere (`Answer.Explained`). It is read
back from the body as it was written. But a request can fail before any handler
hears of it: it is too long, its path does not take its method, or the id of
its file is no text (`Request.Unheard`). The layers that turn such a request
down answer in plain text or with nothing, and those are the only failures
without a message, besides those whose body is left out because only the head
was asked for (`failures_explained_iff`).

Key definitions: `Http.Request.Unheard`, `Http.Answer.Explained`,
`Http.Response.Explains`, `Receiver.CountFits`.
Key theorems: `Json.readDocument_object`, `Http.handle_explained`,
`Http.dispatch_cases`, `Http.failures_explained_iff`.
-/
import FileReceiver.Proofs.Records
import FileReceiver.Proofs.Wire

namespace FileReceiver

open Json (Value)

/-! ### Objects of scalars -/

namespace Json

variable {members : List (String × Value)} {key : String} {v : Value}

theorem lookup_of_mem (h : (members.map (·.1)).Nodup) (hmem : (key, v) ∈ members) :
    members.lookup key = some v := by
  induction members with
  | nil => cases hmem
  | cons m members ih =>
    obtain ⟨hfresh, hrest⟩ := List.nodup_cons.mp h
    rcases List.mem_cons.mp hmem with rfl | hmem
    · exact List.lookup_cons_self
    · have hne : key ≠ m.1 := by
        rintro rfl
        exact hfresh (List.mem_map.mpr ⟨_, hmem, rfl⟩)
      rw [List.lookup_cons, beq_false_of_ne hne]
      exact ih hrest hmem

/-- A member is found among members that have been gathered, if their keys differ. -/
theorem member?_gathered (hnodup : (members.map (·.1)).Nodup) (hmem : (key, v) ∈ members) :
    (Value.object (gathered members)).member? key = some v := by
  have hperm := gathered_perm hnodup
  exact lookup_of_mem ((hperm.map _).nodup_iff.mpr hnodup) (hperm.mem_iff.mpr hmem)

/-- **An object is read back** from its text if its members are, with its members gathered by their
keys. -/
theorem readDocument_object {ms : List (String × Value × Value)}
    (h : ∀ m ∈ ms, Restores (readValue 126) m.2.1.compactChars m.2.2) :
    readDocument (Value.object (ms.map fun m => (m.1, m.2.1))).compact.toUTF8.toList =
      .ok (.object (gathered (ms.map fun m => (m.1, m.2.2)))) := by
  have hchars : ∀ m ∈ ms.map fun m => (m.1, m.2.1.compactChars, m.2.2),
      Restores (readValue 126) m.2.1 m.2.2 := by
    intro m hm
    obtain ⟨m', hm', rfl⟩ := List.mem_map.mp hm
    exact h m' hm'
  have hback : Restores (readValue 127)
      (Value.object (ms.map fun m => (m.1, m.2.1))).compactChars
      (.object (gathered (ms.map fun m => (m.1, m.2.2)))) := by
    have hobject := Restores.object Layout.isBlank_compact hchars
    rw [List.map_map, List.map_map] at hobject
    rw [Value.compactChars_object, List.map_map]
    exact hobject
  rw [Value.compact, Text.toList_toUTF8, String.toList_ofList]
  exact readWhole_back hback

theorem restores_compact {v : Value} (h : v.IsScalar) (depth : Nat) :
    Restores (readValue depth) v.compactChars v := by
  rw [h.compactChars]
  exact .scalar h depth

/-- An object of scalars is read back as it is. -/
theorem readDocument_scalars (h : ∀ m ∈ members, m.2.IsScalar) :
    readDocument (Value.object members).compact.toUTF8.toList =
      .ok (.object (gathered members)) := by
  have hmembers : ∀ m ∈ members.map fun m => (m.1, m.2, m.2),
      Restores (readValue 126) m.2.1.compactChars m.2.2 := by
    intro m hm
    obtain ⟨m', hm', rfl⟩ := List.mem_map.mp hm
    exact restores_compact (h m' hm') 126
  simpa only [List.map_map, Function.comp_def, List.map_id'] using readDocument_object hmembers

end Json

/-- A chunk of so many bytes brings no file of the session past a count of 64 bits. -/
def Receiver.CountFits (r : Receiver) (size : Nat) : Prop :=
  ∀ s, r.session = some s → ∀ t ∈ s.files, t.received + size < UInt64.size

namespace Http

variable {r : Receiver} {limit : Nat} {q : Request} {fits : Prop}

/-- A response that tells in words what went wrong. -/
structure Response.Explains (response : Response) (message : String) : Prop where
  contentType : ("content-type", "application/json; charset=utf-8") ∈ response.headers
  body : ∃ v : Value, response.body = v.compact ∧ v.member? "message" = some (.string message)

/-- The message that is found in the body of a response when it is read. -/
def Response.message? (response : Response) : Option String :=
  match Json.readDocument response.body.toUTF8.toList with
  | .error _ => none
  | .ok v =>
    match v.member? "message" with
    | some (.string message) => some message
    | _ => none

/-- A request that no handler hears of. -/
inductive Request.Unheard (limit : Nat) (q : Request) : Prop where
  /-- The length that it declares is over the limit. -/
  | declared (h : exceeds limit q = true)
  /-- Its path does not take its method. -/
  | method (route : Route) (hroute : Route.ofPath? q.path = some route)
      (h : q.method ∉ route.methods)
  /-- Its body is over the limit, or longer than it declares, and would have been read. -/
  | body (route : Route) (hroute : Route.ofPath? q.path = some route) (hread : route ≠ .ping)
      (h : bodyLimit limit q < q.body.size)
  /-- The id of its file is not UTF-8. -/
  | fileId (segment : String) (hroute : Route.ofPath? q.path = some (.fileData segment))
      (h : Percent.decodeText? segment = none)

/-- The answers to the requests that no handler hears of. -/
def unheardAnswers : List Answer :=
  [declaredTooLong, bodyTooLong, badFileId, ⟨405, .nothing⟩]

/-- An answer that tells of a failure holds a message, in an object with different keys, and of
scalars where the counts fit. -/
def Answer.Explained (fits : Prop) (a : Answer) : Prop :=
  400 ≤ a.status → ∃ members message, a.content = .json (.object members) ∧
    (members.map (·.1)).Nodup ∧ ("message", .string message) ∈ members ∧
      (fits → ∀ m ∈ members, m.2.IsScalar)

/-! ### Handlers -/

/-- An object that only holds a message. -/
theorem explained_message (fits : Prop) (status : Nat) (text : String) :
    Answer.Explained fits ⟨status, .json (Refusal.messageBody text)⟩ := fun _ =>
  ⟨_, text, rfl, by simp, List.mem_singleton_self _, fun _ m hm => by
    rw [List.mem_singleton.mp hm]
    trivial⟩

theorem explained_of_lt {a : Answer} (h : a.status < 400) : a.Explained fits :=
  fun hstatus => absurd h (Nat.not_lt.mpr hstatus)

/-- What an operation gives is explained if what it gives on success is. -/
theorem explained_answerOf {α : Type} {served : Served α} {answer : α → Answer}
    (hok : ∀ a r', served = (.ok a, r') → (answer a).Explained fits) :
    (answerOf served answer).1.Explained fits := by
  rcases served with ⟨e | a, r'⟩
  · exact explained_message fits e.status e.message
  · exact hok a r' rfl

theorem connect_explained (body : ByteArray) : (connect r body).1.Explained fits := by
  unfold connect
  split
  · exact explained_message fits _ _
  · exact explained_answerOf fun _ _ _ => explained_of_lt (by simp)

theorem requestSend_explained (body : ByteArray) : (requestSend r body).1.Explained fits := by
  unfold requestSend
  split
  · exact explained_message fits _ _
  split
  · exact explained_message fits _ _
  · exact explained_answerOf fun _ _ _ => explained_of_lt (by simp)

theorem cancelSend_explained (body : ByteArray) : (cancelSend r body).1.Explained fits := by
  unfold cancelSend
  split
  · exact explained_message fits _ _
  · exact explained_answerOf fun _ _ _ => explained_of_lt (by simp)

/-- The count that a report tells fits 64 bits if what was counted before does, with the chunk. -/
theorem processed_fits {id : Option String} {fileId : String} {bytes : ByteArray}
    {report : ChunkReport} {r' : Receiver} (hfits : r.CountFits bytes.size)
    (h : r.writeChunk id fileId bytes = (.ok report, r')) : report.processed < UInt64.size := by
  obtain ⟨s, t, result, t', d, hs, -, hfile, hreceive, rfl, -⟩ := Receiver.exists_of_writeChunk h
  have hbound := hfits s hs t (Session.mem_of_file? hfile)
  have hcount : t'.received ≤ t.received + bytes.size := by
    rcases Transfer.receive_cases hreceive with ⟨-, -, rfl, -⟩ | ⟨-, ⟨e, -, -, rfl⟩ | ⟨d', -, h⟩⟩
    · exact Nat.le_add_right _ _
    · exact Nat.le_add_right _ _
    rcases h with ⟨-, -, rfl, -⟩ | ⟨-, hfinish⟩
    · exact Nat.le_refl _
    · rw [(Transfer.finish_result hfinish).1]
      exact Nat.le_refl _
  exact Nat.lt_of_le_of_lt hcount hbound

/-- A chunk that has failed is answered by its report, which has a message as well. -/
theorem fileData_explained (id : Option String) (fileId : String) (body : ByteArray) :
    (fileData r id fileId body).1.Explained (r.CountFits body.size) := by
  refine explained_answerOf fun report r' h _ => ?_
  have hscalar (hfits : r.CountFits body.size) : (Value.natural report.processed).IsScalar :=
    Json.Form.scalar_natural (processed_fits hfits h)
  refine ⟨_, report.result.message, rfl, ?_, by simp, fun hfits m hm => ?_⟩
  · cases report.hashVerified <;> simp
  · have hcount := hscalar hfits
    cases hv : report.hashVerified with
    | none =>
      simp only [hv, List.append_nil, List.mem_cons, List.not_mem_nil, or_false] at hm
      rcases hm with rfl | rfl | rfl | rfl | rfl
      all_goals first | exact hcount | trivial
    | some b =>
      simp only [hv, List.cons_append, List.nil_append, List.mem_cons, List.not_mem_nil,
        or_false] at hm
      rcases hm with rfl | rfl | rfl | rfl | rfl | rfl
      all_goals first | exact hcount | trivial

/-! ### Every request -/

/-- Unless a body is too long, the handler sees it. -/
theorem withBody_of_le (h : q.body.size ≤ bodyLimit limit q)
    (handler : ByteArray → Answer × Receiver) :
    withBody limit r q handler = handler q.body :=
  if_neg (Nat.not_lt.mpr h)

/-- **What a handler does not do, it explains.** -/
theorem handle_explained {route : Route} (hroute : Route.ofPath? q.path = some route)
    (hheard : ¬ q.Unheard limit) :
    (handle limit r q route).1.Explained (r.CountFits q.body.size) := by
  have hbody (hping : route ≠ .ping) : q.body.size ≤ bodyLimit limit q :=
    Nat.not_lt.mp fun h => hheard (.body route hroute hping h)
  cases route with
  | connect =>
    rw [handle, withBody_of_le (hbody (by simp))]
    exact connect_explained q.body
  | requestSend =>
    rw [handle, withBody_of_le (hbody (by simp))]
    exact requestSend_explained q.body
  | cancelSend =>
    rw [handle, withBody_of_le (hbody (by simp))]
    exact cancelSend_explained q.body
  | ping => exact explained_of_lt (by simp [handle, ping])
  | fileData segment =>
    rw [handle]
    cases hid : Percent.decodeText? segment with
    | none => exact absurd (.fileId segment hroute hid) hheard
    | some fileId =>
      dsimp only
      rw [withBody_of_le (hbody (by simp))]
      exact fileData_explained _ fileId q.body

/-- Too long a body is answered by nothing else, where a body is read. -/
theorem handle_unheard {route : Route} (hroute : Route.ofPath? q.path = some route)
    (hmethod : q.method ∈ route.methods) (hlength : exceeds limit q = false)
    (hunheard : q.Unheard limit) : (handle limit r q route).1 ∈ unheardAnswers := by
  have hcause : route ≠ .ping ∧ bodyLimit limit q < q.body.size ∨
      ∃ segment, route = .fileData segment ∧ Percent.decodeText? segment = none := by
    cases hunheard with
    | declared h => simp [hlength] at h
    | method other hother h =>
      rw [hroute] at hother
      cases hother
      exact absurd hmethod h
    | body other hother hread h =>
      rw [hroute] at hother
      cases hother
      exact Or.inl ⟨hread, h⟩
    | fileId segment hother h =>
      rw [hroute] at hother
      cases hother
      exact Or.inr ⟨segment, rfl, h⟩
  have hlong {handler : ByteArray → Answer × Receiver} (h : bodyLimit limit q < q.body.size) :
      (withBody limit r q handler).1 ∈ unheardAnswers := by
    rw [withBody, if_pos h]
    simp [unheardAnswers]
  rcases hcause with ⟨hping, hbody⟩ | ⟨segment, rfl, hid⟩
  · cases route with
    | connect => exact hlong hbody
    | requestSend => exact hlong hbody
    | cancelSend => exact hlong hbody
    | ping => exact absurd rfl hping
    | fileData segment =>
      rw [handle]
      cases Percent.decodeText? segment with
      | none => simp [unheardAnswers]
      | some fileId => exact hlong hbody
  · rw [handle, hid]
    simp [unheardAnswers]

/-- **Every request is heard, or answered by one of four answers.** -/
theorem dispatch_cases (limit : Nat) (r : Receiver) (q : Request) :
    q.Unheard limit ∧ (dispatch limit r q).1 ∈ unheardAnswers ∨
      ¬ q.Unheard limit ∧ (dispatch limit r q).1.Explained (r.CountFits q.body.size) := by
  unfold dispatch
  by_cases hlength : exceeds limit q = true
  · rw [if_pos hlength]
    exact Or.inl ⟨.declared hlength, by simp [unheardAnswers]⟩
  rw [if_neg hlength]
  rcases hroute : Route.ofPath? q.path with _ | route
  · refine Or.inr ⟨fun hunheard => ?_, explained_message _ 404 _⟩
    cases hunheard with
    | declared h => exact hlength h
    | method _ h | body _ h | fileId _ h => simp [hroute] at h
  dsimp only
  by_cases hmethod : q.method ∈ route.methods
  · rw [if_pos (by simpa using hmethod)]
    by_cases hunheard : q.Unheard limit
    · exact Or.inl ⟨hunheard, handle_unheard hroute hmethod (by simpa using hlength) hunheard⟩
    · exact Or.inr ⟨hunheard, handle_explained hroute hunheard⟩
  · rw [if_neg (by simpa using hmethod)]
    exact Or.inl ⟨.method route hroute hmethod, by simp [unheardAnswers]⟩

/-! ### Every response -/

/-- An object is not written as nothing. -/
theorem compact_ne_empty {v : Value} {key : String} {x : Value} (h : v.member? key = some x) :
    v.compact ≠ "" := by
  cases v with
  | object members =>
    intro hempty
    have hchars := congrArg String.toList hempty
    simp [Value.compact, Value.compactChars] at hchars
  | _ => cases h

/-- What is answered to a request that no handler hears of is no document. -/
theorem readDocument_unheard {a : Answer} (h : a ∈ unheardAnswers) :
    (Json.readDocument a.content.written.toUTF8.toList).isOk = false := by
  have hall : (unheardAnswers.all fun a =>
      !(Json.readDocument a.content.written.toUTF8.toList).isOk) = true := by decide +kernel
  simpa using List.all_eq_true.mp hall a h

/-- It is not labelled as one, either. -/
theorem not_explains_unheard {a : Answer} (h : a ∈ unheardAnswers) (message : String) :
    ¬ (finish q a []).Explains message := by
  have hcontent : ∀ v, a.content ≠ .json v := by
    intro v
    rcases List.mem_cons.mp h with rfl | h
    · nofun
    simp only [List.mem_cons, List.not_mem_nil, or_false] at h
    rcases h with rfl | rfl | rfl <;> nofun
  have hallow : ∀ header ∈ allowHeaders q, header.1 = "allow" := by
    unfold allowHeaders
    repeat' split
    all_goals simp
  intro hexplains
  have hheader := hexplains.contentType
  simp only [finish, List.append_nil, List.mem_append] at hheader
  rcases hheader with (hstanding | hlisted) | hlabel
  · exact absurd hstanding (by decide)
  · exact absurd (hallow _ hlisted) (by decide)
  · cases hc : a.content with
    | json v => exact hcontent v hc
    | text text => simp [hc, contentHeaders] at hlabel
    | nothing => simp [hc, contentHeaders] at hlabel

theorem message?_unread {response : Response}
    (h : (Json.readDocument response.body.toUTF8.toList).isOk = false) :
    response.message? = none := by
  unfold Response.message?
  cases hread : Json.readDocument response.body.toUTF8.toList with
  | error e => rfl
  | ok v =>
    rw [hread] at h
    cases h

/-- The message of an object of scalars is found when it is read. -/
theorem message?_scalars {response : Response} {members : List (String × Value)} {message : String}
    (hbody : response.body = (Value.object members).compact) (hnodup : (members.map (·.1)).Nodup)
    (hmem : ("message", .string message) ∈ members) (hscalars : ∀ m ∈ members, m.2.IsScalar) :
    response.message? = some message := by
  have hmember : (Value.object (Json.gathered members)).member? "message" =
      some (.string message) := Json.member?_gathered hnodup hmem
  simp only [Response.message?, hbody, Json.readDocument_scalars hscalars, hmember]

/-- **A failure has a message unless nothing heard the request.** Whatever the receiver, the limit
and the request: a response by a status of 400 or above closes the connection. It holds a message in
an object, labelled as such, just if some handler heard of the request and more than the head was
asked for; and just then a message is found when its body is read, as long as no count passes 64
bits. -/
theorem failures_explained_iff (limit : Nat) (r : Receiver) (q : Request)
    (hfailed : 400 ≤ (respond limit r q).1.status) :
    ("connection", "close") ∈ (respond limit r q).1.headers ∧
    ((∃ message, (respond limit r q).1.Explains message) ↔
      q.method ≠ "HEAD" ∧ ¬ q.Unheard limit) ∧
    (r.CountFits q.body.size →
      ((respond limit r q).1.message?.isSome ↔ q.method ≠ "HEAD" ∧ ¬ q.Unheard limit)) := by
  have hoptions : q.method ≠ "OPTIONS" := by
    intro hoptions
    rw [respond, if_pos hoptions] at hfailed
    exact absurd hfailed (by simp [finish])
  have hrespond : (respond limit r q).1 = finish q (dispatch limit r q).1 [] := by
    rw [respond, if_neg hoptions]
  rw [hrespond] at hfailed ⊢
  refine ⟨by simp [finish, standingHeaders], ?_⟩
  by_cases hhead : q.method = "HEAD"
  · -- without a body there is nothing to read, whoever answers
    have hbody : (finish q (dispatch limit r q).1 []).body = "" := if_pos hhead
    have hnone : (finish q (dispatch limit r q).1 []).message? = none :=
      message?_unread (by rw [hbody]; decide +kernel)
    refine ⟨⟨?_, fun h => absurd hhead h.1⟩, fun _ => by simp [hnone, hhead]⟩
    rintro ⟨message, hexplains⟩
    obtain ⟨v, hv, hmember⟩ := hexplains.body
    exact absurd (hv.symm.trans hbody) (compact_ne_empty hmember)
  have hbody : (finish q (dispatch limit r q).1 []).body =
      (dispatch limit r q).1.content.written := if_neg hhead
  rcases dispatch_cases limit r q with ⟨hunheard, hmem⟩ | ⟨hheard, hexplained⟩
  · have hnone : (finish q (dispatch limit r q).1 []).message? = none :=
      message?_unread (by rw [hbody]; exact readDocument_unheard hmem)
    refine ⟨⟨?_, fun h => absurd hunheard h.2⟩, fun _ => by simp [hnone, hunheard]⟩
    rintro ⟨message, hexplains⟩
    exact absurd hexplains (not_explains_unheard hmem message)
  · obtain ⟨members, message, hcontent, hnodup, hmem, hscalars⟩ := hexplained hfailed
    have hwritten : (finish q (dispatch limit r q).1 []).body = (Value.object members).compact := by
      rw [hbody, hcontent]
      rfl
    have hlabel : ("content-type", "application/json; charset=utf-8") ∈
        (finish q (dispatch limit r q).1 []).headers := by
      simp [finish, hcontent, contentHeaders]
    refine ⟨⟨fun _ => ⟨hhead, hheard⟩, fun _ =>
      ⟨message, hlabel, _, hwritten, Json.lookup_of_mem hnodup hmem⟩⟩, fun hfits => ?_⟩
    rw [message?_scalars hwritten hnodup hmem (hscalars hfits)]
    exact ⟨fun _ => ⟨hhead, hheard⟩, fun _ => rfl⟩

theorem stray_explained :
    400 ≤ (respond 1024 Receiver.unpairedExample strayRequest).1.status ∧
      Receiver.unpairedExample.CountFits strayRequest.body.size ∧
      (∃ message, (respond 1024 Receiver.unpairedExample strayRequest).1.Explains message) ∧
      ("connection", "close") ∈ (respond 1024 Receiver.unpairedExample strayRequest).1.headers := by
  have hfailed : 400 ≤ (respond 1024 Receiver.unpairedExample strayRequest).1.status := by
    decide +kernel
  have hfits : Receiver.unpairedExample.CountFits strayRequest.body.size := nofun
  have hread : (respond 1024 Receiver.unpairedExample strayRequest).1.message?.isSome = true := by
    decide +kernel
  obtain ⟨hclose, hexplains, hreads⟩ :=
    failures_explained_iff 1024 Receiver.unpairedExample strayRequest hfailed
  exact ⟨hfailed, hfits, hexplains.mpr ((hreads hfits).mp hread), hclose⟩

/-- A request to pair that asks to be shown something instead. -/
def fetchRequest : Request := ⟨"GET", "/connect", [], .empty⟩

theorem fetch_unexplained :
    (respond 1024 Receiver.unpairedExample fetchRequest).1 =
        ⟨405, standingHeaders ++ [("allow", "POST")], ""⟩ ∧
      (respond 1024 Receiver.unpairedExample fetchRequest).1.message? = none := by
  decide +kernel

end Http
end FileReceiver
