/-
# What a refusal leaves behind

An operation that is refused leaves the receiver as it was, with one
exception: a session for which there is no folder. Then the folder was to be
made first, and some of those that it stands in may have been
(`openSession_error`). A request over HTTP is answered by the status of what
its operation gives, so a status of the four hundreds tells that nothing has
changed, wherever on its way the request was turned down.

Key definitions: `Http.Harmless`, `Http.Prepares`.
Key theorems: `Receiver.openForPeer_error`, `Http.handle_harmless`,
`Http.refused_without_trace`.
-/
import FileReceiver.Proofs.Containment

namespace FileReceiver

/-! ### Refused operations -/

namespace Receiver

variable {r r' : Receiver} {e : Refusal}

theorem pair_error {pin : String} {remote : Device} (h : r.pair pin remote = (.error e, r')) :
    r' = r := by
  unfold pair at h
  repeat' split at h
  all_goals cases h
  all_goals rfl

/-- A session that is not opened has changed nothing, unless the folder for its files could not be
made; then folders have been made that it stands in, or none. -/
theorem openSession_error {id : String} {manifest : Manifest}
    (h : r.openSession id manifest = (.error e, r')) :
    (e.status < 500 → r' = r) ∧ ∃ d, r' = r.on d ∧ r.disk.Raises r.outputFolder.StandsIn d := by
  have hraises : r.disk.Raises r.outputFolder.StandsIn (prepareFolder r.outputFolder r.disk).2 := by
    have hmakes : (preparing r.outputFolder).Makes (Call.OnFolders r.outputFolder.StandsIn) [] :=
      makes_preparing r.outputFolder
    rw [← run_preparing]
    exact Routine.run_raises hmakes
  unfold openSession at h
  split at h
  · cases h
    exact ⟨fun _ => rfl, r.disk, rfl, .refl r.disk⟩
  split at h
  · rename_i cause d heq
    rw [heq] at hraises
    cases h
    exact ⟨fun hlow => absurd hlow (Nat.lt_irrefl 500), d, rfl, hraises⟩
  · cases h

theorem openForPeer_error {id : String} {manifest : Manifest}
    (h : r.openForPeer id manifest = (.error e, r')) :
    (e.status < 500 → r' = r) ∧ ∃ d, r' = r.on d ∧ r.disk.Raises r.outputFolder.StandsIn d := by
  unfold openForPeer at h
  split at h
  · cases h
    exact ⟨fun _ => rfl, r.disk, rfl, .refl r.disk⟩
  · exact openSession_error h

theorem writeChunk_error {id : Option String} {fileId : String} {bytes : ByteArray}
    (h : r.writeChunk id fileId bytes = (.error e, r')) : r' = r := by
  unfold writeChunk at h
  repeat' split at h
  all_goals cases h
  all_goals rfl

theorem cancelForPeer_error {id : String} (h : r.cancelForPeer id = (.error e, r')) : r' = r := by
  unfold cancelForPeer cancelSession at h
  repeat' split at h
  all_goals cases h
  all_goals rfl

end Receiver

/-! ### Refused requests -/

namespace Http

variable {r : Receiver}

/-- An answer by a status of the four hundreds means that the receiver is as it was. -/
def Harmless (r : Receiver) (served : Answer × Receiver) : Prop :=
  400 ≤ served.1.status → served.1.status < 500 → served.2 = r

theorem Harmless.unchanged (a : Answer) : Harmless r (a, r) := fun _ _ => rfl

/-- An operation is answered harmlessly if its refusals are, and if no success is taken for one. -/
theorem answerOf_harmless {α : Type} {served : Served α} {answer : α → Answer}
    (hok : ∀ a, (answer a).status < 400 ∨ 500 ≤ (answer a).status)
    (herror : ∀ e r', served = (.error e, r') → e.status < 500 → r' = r) :
    Harmless r (answerOf served answer) := by
  intro hlo hhi
  rcases served with ⟨e | a, r'⟩
  · exact herror e r' rfl hhi
  · have hstatus : (answerOf (.ok a, r') answer).1 = answer a := rfl
    rw [hstatus] at hlo hhi
    have := hok a
    omega

theorem connect_harmless (body : ByteArray) : Harmless r (connect r body) := by
  unfold connect
  split
  · exact .unchanged _
  · exact answerOf_harmless (fun _ => Or.inl (by simp)) fun _ _ h _ => Receiver.pair_error h

theorem requestSend_harmless (body : ByteArray) : Harmless r (requestSend r body) := by
  unfold requestSend
  split
  · exact .unchanged _
  split
  · exact .unchanged _
  · exact answerOf_harmless (fun _ => Or.inl (by simp)) fun _ _ h =>
      (Receiver.openForPeer_error h).1

theorem cancelSend_harmless (body : ByteArray) : Harmless r (cancelSend r body) := by
  unfold cancelSend
  split
  · exact .unchanged _
  · exact answerOf_harmless (fun _ => Or.inl (by simp)) fun _ _ h _ =>
      Receiver.cancelForPeer_error h

/-- A chunk that is not refused is answered by 200 or, if it has failed, by 500. -/
theorem fileData_harmless (id : Option String) (fileId : String) (body : ByteArray) :
    Harmless r (fileData r id fileId body) := by
  refine answerOf_harmless (fun report => ?_) fun _ _ h _ => Receiver.writeChunk_error h
  by_cases hfailed : report.result.status = .failed
  · exact Or.inr (by simp [hfailed])
  · exact Or.inl (by simp [hfailed])

/-- A body that is too long reaches no handler. -/
theorem withBody_eq (limit : Nat) (r : Receiver) (q : Request)
    (handler : ByteArray → Answer × Receiver) :
    withBody limit r q handler = (bodyTooLong, r) ∨ withBody limit r q handler = handler q.body := by
  unfold withBody
  split
  · exact Or.inl rfl
  · exact Or.inr rfl

theorem withBody_harmless (limit : Nat) {q : Request} {handler : ByteArray → Answer × Receiver}
    (h : Harmless r (handler q.body)) : Harmless r (withBody limit r q handler) := by
  rcases withBody_eq limit r q handler with heq | heq
  · rw [heq]
    exact .unchanged _
  · rw [heq]
    exact h

/-- **No route refuses and changes.** -/
theorem handle_harmless (limit : Nat) (q : Request) (route : Route) :
    Harmless r (handle limit r q route) := by
  cases route with
  | connect => exact withBody_harmless limit (connect_harmless q.body)
  | requestSend => exact withBody_harmless limit (requestSend_harmless q.body)
  | cancelSend => exact withBody_harmless limit (cancelSend_harmless q.body)
  | ping => exact .unchanged _
  | fileData segment =>
    simp only [handle]
    cases Percent.decodeText? segment with
    | none => exact .unchanged _
    | some fileId => exact withBody_harmless limit (fileData_harmless _ fileId q.body)

theorem dispatch_harmless (limit : Nat) (q : Request) : Harmless r (dispatch limit r q) := by
  unfold dispatch
  split
  · exact .unchanged _
  split
  · exact .unchanged _
  split
  · exact handle_harmless limit q _
  · exact .unchanged _

/-- Unless it is answered by 200, a request has at most had folders made, on the way to the one for
received files. -/
def Prepares (r : Receiver) (served : Answer × Receiver) : Prop :=
  served.1.status ≠ 200 →
    ∃ d, served.2 = r.on d ∧ r.disk.Raises r.outputFolder.StandsIn d

theorem Prepares.unchanged (a : Answer) : Prepares r (a, r) := fun _ =>
  ⟨r.disk, rfl, .refl r.disk⟩

theorem requestSend_prepares (body : ByteArray) : Prepares r (requestSend r body) := by
  unfold requestSend
  split
  · exact .unchanged _
  split
  · exact .unchanged _
  rename_i id manifest _
  rcases hopen : r.openForPeer id manifest with ⟨e | opened, r'⟩
  · exact fun _ => (Receiver.openForPeer_error hopen).2
  · exact fun hstatus => absurd rfl hstatus

theorem dispatch_prepares (limit : Nat) {q : Request}
    (hroute : Route.ofPath? q.path = some .requestSend) : Prepares r (dispatch limit r q) := by
  unfold dispatch
  rw [hroute]
  split
  · exact .unchanged _
  dsimp only
  split
  · change Prepares r (withBody limit r q (requestSend r))
    rcases withBody_eq limit r q (requestSend r) with heq | heq
    · rw [heq]
      exact .unchanged _
    · rw [heq]
      exact requestSend_prepares q.body
  · exact .unchanged _

/-- **A refused request leaves no trace.** Whatever the receiver, the limit and the request: if the
status of the response is one of the four hundreds, then the receiver is what it was, its disk
included. And if a request to send is answered by 500, then only the disk is another, and there
nothing but the folder for received files can have been made, and folders that it stands in. -/
theorem refused_without_trace (limit : Nat) (r : Receiver) (q : Request) :
    (400 ≤ (respond limit r q).1.status → (respond limit r q).1.status < 500 →
      (respond limit r q).2 = r) ∧
    (Route.ofPath? q.path = some .requestSend → (respond limit r q).1.status = 500 →
      ∃ d, (respond limit r q).2 = r.on d ∧ r.disk.Raises r.outputFolder.StandsIn d) := by
  by_cases hoptions : q.method = "OPTIONS"
  · have hrespond : respond limit r q = (finish q ⟨200, .nothing⟩ optionHeaders, r) :=
      if_pos hoptions
    rw [hrespond]
    exact ⟨fun _ _ => rfl, fun _ _ => ⟨r.disk, rfl, .refl r.disk⟩⟩
  · have hrespond : respond limit r q =
        (finish q (dispatch limit r q).1 [], (dispatch limit r q).2) := if_neg hoptions
    rw [hrespond]
    refine ⟨dispatch_harmless limit q, fun hroute hfailed => dispatch_prepares limit hroute ?_⟩
    have hstatus : (dispatch limit r q).1.status = 500 := hfailed
    rw [hstatus]
    decide

/-- A paired receiver whose folder is two deep, on a disk that is full once one folder is made. -/
def crampedExample : Receiver where
  device := {}
  pin := "123456"
  outputFolder := ⟨"x/out"⟩
  peer := some { id := "d", nickname := "n" }
  disk := { entries := ∅, faults := [none, none, none, some ⟨.noSpace, 0⟩] }

/-- A request to send no files. -/
def sendRequest : Request :=
  ⟨"POST", "/request-send", [], "\x7b\"session_id\":\"s\",\"files\":\x7b\x7d\x7d".toUTF8⟩

/-- A chunk that belongs to no session. -/
def strayRequest : Request := ⟨"POST", "/file_data/f", [], ⟨#[7]⟩⟩

theorem cramped_without_trace :
    (∃ d, (respond 1024 crampedExample sendRequest).2 = crampedExample.on d ∧
      crampedExample.disk.Raises crampedExample.outputFolder.StandsIn d ∧
      d.holdsFolder ["x"] = true) ∧
    (respond 1024 crampedExample strayRequest).1.status = 400 ∧
      (respond 1024 crampedExample strayRequest).2 = crampedExample := by
  have hroute : Route.ofPath? sendRequest.path = some .requestSend := by decide +kernel
  have hfailed : (respond 1024 crampedExample sendRequest).1.status = 500 := by decide +kernel
  have hmade : (respond 1024 crampedExample sendRequest).2.disk.holdsFolder ["x"] = true := by
    decide +kernel
  have hstray : (respond 1024 crampedExample strayRequest).1.status = 400 := by decide +kernel
  obtain ⟨d, hd, hraises⟩ := (refused_without_trace 1024 crampedExample sendRequest).2 hroute hfailed
  refine ⟨⟨d, hd, hraises, ?_⟩, hstray, ?_⟩
  · rw [hd] at hmade
    exact hmade
  · exact (refused_without_trace 1024 crampedExample strayRequest).1 (by omega) (by omega)

end Http
end FileReceiver
