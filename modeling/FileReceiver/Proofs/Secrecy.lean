/-
# The PIN stays unseen

A receiver looks at its PIN in one place only, where it compares it with the
one that a peer names. Everything else that it does, and everything that it
answers, is the same with another PIN: giving a receiver another PIN before a
step is as good as giving it afterwards (`perform_withPin`, `respond_withPin`).
So as long as nobody names the one PIN or the other, two receivers that differ
in nothing but their PIN cannot be told apart, neither by what they answer nor
by what stands after each step (`pin_unseen`).

Key definitions: `Operation.pin?`, `Demand.pin?`, `Receiver.withPin`,
`Receiver.observations`.
Key theorems: `Receiver.perform_withPin`, `Http.respond_withPin`,
`Receiver.serve_withPin`, `Receiver.pin_unseen`.
-/
import FileReceiver.Proofs.Pairing

namespace FileReceiver

/-- The PIN that an operation names. -/
def Operation.pin? : Operation → Option String
  | pair given _ => some given
  | _ => none

/-- The PIN that is named by what is asked, directly or over HTTP. -/
def Demand.pin? (d : Demand) : Option String :=
  d.operation?.bind Operation.pin?

namespace Receiver

/-- The receiver with another PIN. -/
def withPin (r : Receiver) (pin : String) : Receiver := { r with pin := pin }

/-- What is given together with a receiver, and the receiver with another PIN. -/
def changePin {α : Type} (pin : String) (x : α × Receiver) : α × Receiver := (x.1, x.2.withPin pin)

variable {r : Receiver} {pin : String}

/-! ### Operations -/

/-- Who names neither PIN is told the same. -/
theorem pair_withPin {given : String} (h : given ≠ r.pin) (h' : given ≠ pin) (remote : Device) :
    (r.withPin pin).pair given remote = changePin pin (r.pair given remote) := by
  unfold pair
  by_cases hgiven : given = ""
  · rw [if_pos hgiven, if_pos hgiven]
    rfl
  rw [if_neg hgiven, if_neg hgiven]
  cases remote.missing? with
  | some need => rfl
  | none =>
    have hother : given ≠ (r.withPin pin).pin := h'
    simp only [if_pos h, if_pos hother]
    rfl

theorem openForPeer_withPin (r : Receiver) (pin id : String) (manifest : Manifest) :
    (r.withPin pin).openForPeer id manifest = changePin pin (r.openForPeer id manifest) := by
  obtain ⟨device, old, folder, policy, peer, session, d⟩ := r
  cases peer with
  | none => rfl
  | some p =>
    simp only [openForPeer, openSession, withPin, Option.isNone_some, Bool.false_eq_true, if_false]
    by_cases hid : id = ""
    · simp only [if_pos hid]
      rfl
    · simp only [if_neg hid]
      rcases prepareFolder folder d with ⟨_ | _, prepared⟩ <;> rfl

theorem writeChunk_withPin (r : Receiver) (pin : String) (id : Option String) (fileId : String)
    (bytes : ByteArray) :
    (r.withPin pin).writeChunk id fileId bytes = changePin pin (r.writeChunk id fileId bytes) := by
  obtain ⟨device, old, folder, policy, peer, session, d⟩ := r
  cases session with
  | none => rfl
  | some s =>
    simp only [writeChunk, withPin]
    by_cases hid : id ≠ some s.id
    · simp only [if_pos hid]
      rfl
    · simp only [if_neg hid]
      cases s.file? fileId <;> rfl

theorem cancelForPeer_withPin (r : Receiver) (pin id : String) :
    (r.withPin pin).cancelForPeer id = changePin pin (r.cancelForPeer id) := by
  obtain ⟨device, old, folder, policy, peer, session, d⟩ := r
  cases peer with
  | none => rfl
  | some p =>
    cases session with
    | none => rfl
    | some s =>
      simp only [cancelForPeer, cancelSession, withPin, Option.isNone_some, Bool.false_eq_true,
        if_false]
      by_cases hid : s.id ≠ id
      · simp only [if_pos hid]
        rfl
      · simp only [if_neg hid]
        rfl

/-- **No operation shows the PIN**, unless it names it. -/
theorem perform_withPin {o : Operation} (h : o.pin? ≠ some r.pin) (h' : o.pin? ≠ some pin) :
    (r.withPin pin).perform o = changePin pin (r.perform o) := by
  cases o with
  | pair given remote =>
    have hne : given ≠ r.pin := fun heq => h (congrArg some heq)
    have hne' : given ≠ pin := fun heq => h' (congrArg some heq)
    rw [perform, pair_withPin hne hne']
    rfl
  | openSession id manifest =>
    rw [perform, openForPeer_withPin]
    rfl
  | writeChunk id fileId bytes =>
    rw [perform, writeChunk_withPin]
    rfl
  | cancelSession id =>
    rw [perform, cancelForPeer_withPin]
    rfl

/-- No operation changes the PIN. -/
theorem Move.pin_eq {r' : Receiver} {o : Operation} (h : r.Move o r') : r'.pin = r.pin := by
  cases h <;> rfl

end Receiver

/-! ### Requests over HTTP -/

namespace Http

open Receiver (changePin)

variable {r : Receiver} {pin : String}

theorem answerOf_changePin {α : Type} (pin : String) (served : Served α) (answer : α → Answer) :
    answerOf (changePin pin served) answer = changePin pin (answerOf served answer) := by
  obtain ⟨e | a, r⟩ := served <;> rfl

theorem connect_withPin {body : ByteArray}
    (h : ∀ given remote, readConnect body = .ok (given, remote) → given ≠ r.pin ∧ given ≠ pin) :
    connect (r.withPin pin) body = changePin pin (connect r body) := by
  unfold connect
  cases hread : readConnect body with
  | error e => rfl
  | ok request =>
    obtain ⟨given, remote⟩ := request
    obtain ⟨hne, hne'⟩ := h given remote hread
    simp only [Receiver.pair_withPin hne hne', answerOf_changePin]

theorem requestSend_withPin (r : Receiver) (pin : String) (body : ByteArray) :
    requestSend (r.withPin pin) body = changePin pin (requestSend r body) := by
  unfold requestSend
  change (if r.peer.isNone then _ else _) = _
  split
  · rfl
  cases readSend body with
  | error e => rfl
  | ok request => simp only [Receiver.openForPeer_withPin, answerOf_changePin]

theorem cancelSend_withPin (r : Receiver) (pin : String) (body : ByteArray) :
    cancelSend (r.withPin pin) body = changePin pin (cancelSend r body) := by
  unfold cancelSend
  cases readCancel body with
  | error e => rfl
  | ok id => simp only [Receiver.cancelForPeer_withPin, answerOf_changePin]

theorem fileData_withPin (r : Receiver) (pin : String) (id : Option String) (fileId : String)
    (body : ByteArray) :
    fileData (r.withPin pin) id fileId body = changePin pin (fileData r id fileId body) := by
  unfold fileData
  rw [Receiver.writeChunk_withPin, answerOf_changePin]

theorem withBody_withPin (limit : Nat) {q : Request}
    (handler : Receiver → ByteArray → Answer × Receiver)
    (h : handler (r.withPin pin) q.body = changePin pin (handler r q.body)) :
    withBody limit (r.withPin pin) q (handler (r.withPin pin)) =
      changePin pin (withBody limit r q (handler r)) := by
  unfold withBody
  split
  · rfl
  · exact h

/-- **No route shows the PIN**, unless its body names it. -/
theorem handle_withPin (limit : Nat) {q : Request} {route : Route}
    (h : ∀ o, route.operation? q = some o → o.pin? ≠ some r.pin ∧ o.pin? ≠ some pin) :
    handle limit (r.withPin pin) q route = changePin pin (handle limit r q route) := by
  cases route with
  | ping => rfl
  | connect =>
    refine withBody_withPin limit connect (connect_withPin fun given remote hread => ?_)
    obtain ⟨hne, hne'⟩ := h (.pair given remote) (by rw [Route.operation?, hread]; rfl)
    exact ⟨fun heq => hne (congrArg some heq), fun heq => hne' (congrArg some heq)⟩
  | requestSend =>
    exact withBody_withPin limit requestSend (requestSend_withPin r pin q.body)
  | cancelSend =>
    exact withBody_withPin limit cancelSend (cancelSend_withPin r pin q.body)
  | fileData segment =>
    simp only [handle]
    cases Percent.decodeText? segment with
    | none => rfl
    | some fileId =>
      exact withBody_withPin limit (fun r => fileData r (q.headerText? sessionHeader) fileId)
        (fileData_withPin r pin _ fileId q.body)

/-- **No request shows the PIN**, unless it names it. -/
theorem respond_withPin (limit : Nat) {q : Request}
    (h : ∀ o, q.operation? = some o → o.pin? ≠ some r.pin ∧ o.pin? ≠ some pin) :
    respond limit (r.withPin pin) q = changePin pin (respond limit r q) := by
  have hdispatch : dispatch limit (r.withPin pin) q = changePin pin (dispatch limit r q) := by
    unfold dispatch
    unfold Request.operation? at h
    split
    · rfl
    cases hroute : Route.ofPath? q.path with
    | none => rfl
    | some route =>
      rw [hroute] at h
      dsimp only at h ⊢
      split
      · rename_i hmethod
        rw [if_pos hmethod] at h
        exact handle_withPin limit h
      · rfl
  unfold respond
  split
  · rfl
  · rw [hdispatch]
    rfl

end Http

/-! ### Runs -/

namespace Receiver

variable {r : Receiver} {pin : String}

/-- Neither an operation nor a request shows the PIN, unless it names it. -/
theorem serve_withPin (limit : Nat) {d : Demand} (h : d.pin? ≠ some r.pin)
    (h' : d.pin? ≠ some pin) :
    (r.withPin pin).serve limit d = changePin pin (r.serve limit d) := by
  have hnames : ∀ o, d.operation? = some o → o.pin? ≠ some r.pin ∧ o.pin? ≠ some pin := by
    intro o ho
    rw [Demand.pin?, ho, Option.bind_some] at h h'
    exact ⟨h, h'⟩
  cases d with
  | direct o =>
    obtain ⟨hne, hne'⟩ := hnames o rfl
    simp only [serve, perform_withPin hne hne']
    rfl
  | http q =>
    simp only [serve, Http.respond_withPin limit hnames]
    rfl

theorem serve_pin (limit : Nat) (r : Receiver) (d : Demand) :
    (r.serve limit d).2.pin = r.pin := by
  rcases serve_cases limit r d with hsame | ⟨o, -, hsame⟩
  · rw [hsame]
  · rw [hsame, (perform_moves r o).pin_eq]

/-- What can be seen of each step of a run: what comes back, and the peer, the session and the disk
after it. -/
def observations (limit : Nat) : Receiver → List Demand →
    List (Reaction × Option Device × Option Session × Disk)
  | _, [] => []
  | r, d :: rest =>
    let (reaction, r) := r.serve limit d
    (reaction, r.peer, r.session, r.disk) :: observations limit r rest

/-- A run in which nobody names the PINs looks the same with either. -/
theorem observations_withPin (limit : Nat) {demands : List Demand}
    (h : ∀ d ∈ demands, d.pin? ≠ some r.pin ∧ d.pin? ≠ some pin) :
    observations limit (r.withPin pin) demands = observations limit r demands := by
  induction demands generalizing r with
  | nil => rfl
  | cons d rest ih =>
    obtain ⟨hne, hne'⟩ := h d List.mem_cons_self
    have hrest : ∀ d' ∈ rest, d'.pin? ≠ some (r.serve limit d).2.pin ∧ d'.pin? ≠ some pin := by
      intro d' hd'
      rw [serve_pin]
      exact h d' (List.mem_cons_of_mem _ hd')
    simp only [observations, serve_withPin limit hne hne']
    exact congrArg (List.cons _) (ih hrest)

/-- **The PIN stays unseen.** Of two receivers that differ in their PIN only, whatever has become of
them before, whatever is asked of both, directly or over HTTP: as long as nobody names the PIN of
the one or the other, both answer the same, and the same peer, the same session and the same disk
stand after every step. -/
theorem pin_unseen (limit : Nat) (r : Receiver) (p q : String) (demands : List Demand)
    (h : ∀ d ∈ demands, d.pin? ≠ some p ∧ d.pin? ≠ some q) :
    observations limit (r.withPin p) demands = observations limit (r.withPin q) demands := by
  have hsame : observations limit ((r.withPin p).withPin q) demands =
      observations limit (r.withPin p) demands := observations_withPin limit h
  exact hsame.symm

/-- A guess directly and one over HTTP, and what can be asked without a PIN. -/
def guessingDemands : List Demand :=
  [.direct (.pair "000000" { id := "d", nickname := "n" }),
    .http ⟨"POST", "/connect", [],
      "\x7b\"pin_code\":\"111111\",\"device_info\":\x7b\"device_id\":\"d\"\x7d\x7d".toUTF8⟩,
    .http ⟨"GET", "/ping", [], .empty⟩, .direct (.writeChunk (some "s") "f" ⟨#[7]⟩)]

theorem guesses_see_same :
    guessingDemands.map Demand.pin? = [some "000000", some "111111", none, none] ∧
      observations 1024 (unpairedExample.withPin "123456") guessingDemands =
        observations 1024 (unpairedExample.withPin "654321") guessingDemands := by
  have hpins : guessingDemands.map Demand.pin? = [some "000000", some "111111", none, none] := by
    decide +kernel
  refine ⟨hpins, pin_unseen 1024 unpairedExample "123456" "654321" guessingDemands fun d hd => ?_⟩
  have hmem : d.pin? ∈ [some "000000", some "111111", none, none] := by
    rw [← hpins]
    exact List.mem_map_of_mem hd
  revert hmem
  generalize d.pin? = named
  simp only [List.mem_cons, List.not_mem_nil, or_false]
  rintro (rfl | rfl | rfl | rfl) <;> decide

end Receiver
end FileReceiver
