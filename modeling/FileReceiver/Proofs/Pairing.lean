/-
# Nothing happens before pairing

Taking a chunk looks at no pairing. What keeps a stranger out is that a
session is only ever opened for a connected peer, and that a peer, once
connected, is never disconnected: a current session means a connected peer
(`Guarded`), whatever is asked and in whatever order. Until someone names the
PIN together with an identity, nothing that is asked changes the receiver at
all (`serveAll_of_unpaired`).

Key definitions: `Operation.Pairs`, `Demand.Pairs`, `Receiver.IsFresh`,
`Receiver.Guarded`.
Key theorems: `Receiver.Move.guarded`, `Receiver.perform_of_unpaired`,
`Receiver.untouched_until_paired`.
-/
import FileReceiver.Proofs.Moves
import FileReceiver.Proofs.Serving

namespace FileReceiver

/-- The operation pairs with a receiver of the given PIN: it names the PIN, which is not empty, and
an identity that lacks nothing. -/
def Operation.Pairs (pin : String) : Operation → Prop
  | .pair given remote => given = pin ∧ given ≠ "" ∧ remote.missing? = none
  | _ => False

/-- What is asked pairs, directly or over HTTP. -/
def Demand.Pairs (pin : String) (d : Demand) : Prop :=
  ∃ o, d.operation? = some o ∧ o.Pairs pin

namespace Receiver

/-- A receiver that nothing has been asked of yet. -/
def IsFresh (r : Receiver) : Prop :=
  r.peer = none ∧ r.session = none

/-- A session is current only while a peer is connected. -/
def Guarded (r : Receiver) : Prop :=
  r.session.isSome → r.peer.isSome

/-- **A session means a peer.** Every operation keeps it that a session is current only while a
peer is connected. -/
theorem Move.guarded {r r' : Receiver} {o : Operation} (hmove : r.Move o r') (h : r.Guarded) :
    r'.Guarded := by
  cases hmove with
  | refused => exact h
  | paired => exact fun _ => rfl
  | unprepared _ _ _ connected | opened _ _ _ connected => exact fun _ => connected
  | written _ _ s _ _ _ _ current => exact fun _ => h (by rw [current]; rfl)
  | cancelled => nofun

theorem guarded_run {r : Receiver} (h : r.Guarded) (operations : List Operation) :
    (r.run operations).Guarded :=
  run_induction (fun _ _ _ hmove => hmove.guarded) operations h

theorem guarded_serveAll (limit : Nat) (r : Receiver) (demands : List Demand) (h : r.Guarded) :
    (r.serveAll limit demands).Guarded :=
  serveAll_induction limit demands (fun _ _ o _ r h => (perform_moves r o).guarded h) r h

/-! ### Before the pairing -/

variable {r : Receiver}

theorem openForPeer_without_peer (hpeer : r.peer = none) (id : String) (manifest : Manifest) :
    r.openForPeer id manifest = (.error .notPaired, r) := by
  simp [openForPeer, hpeer]

theorem cancelForPeer_without_peer (hpeer : r.peer = none) (id : String) :
    r.cancelForPeer id = (.error .notPaired, r) := by
  simp [cancelForPeer, hpeer]

theorem writeChunk_of_fresh (hr : r.IsFresh) (id : Option String) (fileId : String)
    (bytes : ByteArray) :
    r.writeChunk id fileId bytes = (.error (.sessionMismatch none id), r) := by
  simp [writeChunk, hr.2]

/-- An operation that does not pair leaves a fresh receiver as it is. -/
theorem perform_of_unpaired (hr : r.IsFresh) (o : Operation) (ho : ¬ o.Pairs r.pin) :
    (r.perform o).2 = r := by
  have hmove := perform_moves r o
  generalize (r.perform o).2 = r' at hmove ⊢
  cases hmove with
  | refused => rfl
  | paired pin remote known given named => exact absurd ⟨known, given, named⟩ ho
  | unprepared _ _ _ connected | opened _ _ _ connected | cancelled _ connected =>
    rw [hr.1] at connected
    cases connected
  | written _ _ s _ _ _ _ current =>
    rw [hr.2] at current
    cases current

/-- A run in which nothing pairs leaves a fresh receiver as it is. -/
theorem serveAll_of_unpaired (limit : Nat) (hr : r.IsFresh) (demands : List Demand)
    (h : ∀ d ∈ demands, ¬ d.Pairs r.pin) : r.serveAll limit demands = r := by
  refine serveAll_induction (P := (· = r)) limit demands ?_ r rfl
  rintro d hd o ho _ rfl
  exact perform_of_unpaired hr o fun hp => h d hd ⟨o, ho, hp⟩

theorem requestSend_without_peer (hpeer : r.peer = none) (body : ByteArray) :
    Http.requestSend r body = (Http.refusalAnswer .notPaired, r) := by
  simp [Http.requestSend, hpeer]

/-- A request to cancel is read before the pairing is looked at. -/
theorem cancelSend_without_peer (hpeer : r.peer = none) (body : ByteArray) :
    Http.cancelSend r body =
      (Http.refusalAnswer (match Http.readCancel body with
        | .ok _ => .notPaired
        | .error e => e), r) := by
  unfold Http.cancelSend
  cases Http.readCancel body with
  | error e => rfl
  | ok id => simp only [cancelForPeer_without_peer hpeer]; rfl

theorem fileData_of_fresh (hr : r.IsFresh) (id : Option String) (fileId : String)
    (body : ByteArray) :
    Http.fileData r id fileId body = (Http.refusalAnswer (.sessionMismatch none id), r) := by
  simp only [Http.fileData, writeChunk_of_fresh hr]; rfl

/-- How a receiver stands that knows no peer: whatever needs one is refused, directly and over HTTP,
and changes nothing. -/
structure Closed (r : Receiver) : Prop where
  peer : r.peer = none
  session : r.session = none
  opening : ∀ id manifest, r.openForPeer id manifest = (.error .notPaired, r)
  cancelling : ∀ id, r.cancelForPeer id = (.error .notPaired, r)
  writing : ∀ id fileId bytes,
    r.writeChunk id fileId bytes = (.error (.sessionMismatch none id), r)
  requestSend : ∀ body, Http.requestSend r body = (Http.refusalAnswer .notPaired, r)
  cancelSend : ∀ body id, Http.readCancel body = .ok id →
    Http.cancelSend r body = (Http.refusalAnswer .notPaired, r)
  fileData : ∀ id fileId body,
    Http.fileData r id fileId body = (Http.refusalAnswer (.sessionMismatch none id), r)

theorem closed_of_fresh (hr : r.IsFresh) : r.Closed where
  peer := hr.1
  session := hr.2
  opening := openForPeer_without_peer hr.1
  cancelling := cancelForPeer_without_peer hr.1
  writing := writeChunk_of_fresh hr
  requestSend := requestSend_without_peer hr.1
  cancelSend body id h := by rw [cancelSend_without_peer hr.1, h]
  fileData := fileData_of_fresh hr

/-- **Nothing happens before pairing.** As long as nothing that is asked of a fresh receiver names
its PIN together with an identity, no peer is connected, no session is current, the disk is as it
was, and whatever needs a peer is refused. And in every state that a fresh receiver reaches, a
session is current only while a peer is connected. -/
theorem untouched_until_paired (limit : Nat) (r : Receiver) (hr : r.IsFresh) :
    (∀ demands : List Demand, (∀ d ∈ demands, ¬ d.Pairs r.pin) →
      (r.serveAll limit demands).Closed ∧ (r.serveAll limit demands).disk = r.disk) ∧
    ∀ demands : List Demand, (r.serveAll limit demands).session.isSome →
      (r.serveAll limit demands).peer.isSome := by
  refine ⟨fun demands h => ?_, fun demands => ?_⟩
  · rw [serveAll_of_unpaired limit hr demands h]
    exact ⟨closed_of_fresh hr, rfl⟩
  · have hguarded : r.Guarded := fun hs => by rw [hr.2] at hs; cases hs
    exact guarded_serveAll limit r demands hguarded

/-- A receiver on an empty disk. -/
def unpairedExample : Receiver where
  device := {}
  pin := "123456"
  outputFolder := ⟨"out"⟩
  disk := { entries := ∅ }

/-- A wrong PIN, a session asked for in two ways, and a chunk. -/
def strangerDemands : List Demand :=
  [.direct (.pair "000000" { id := "d", nickname := "n" }),
    .direct (.openSession "s" [("f", { size := 1 })]),
    .http ⟨"POST", "/request-send", [], .empty⟩,
    .direct (.writeChunk (some "s") "f" .empty)]

theorem strangerDemands_unpaired : ∀ d ∈ strangerDemands, ¬ d.Pairs "123456" := by
  intro d hd
  simp only [strangerDemands, List.mem_cons, List.not_mem_nil, or_false] at hd
  rintro ⟨o, ho, hp⟩
  rcases hd with rfl | rfl | rfl | rfl
  · cases ho
    exact absurd hp.1 (by decide)
  · cases ho
    exact hp
  · have hnone : (Demand.http ⟨"POST", "/request-send", [], .empty⟩).operation? = none :=
      Option.isNone_iff_eq_none.mp (by decide +kernel)
    rw [hnone] at ho
    cases ho
  · cases ho
    exact hp

theorem untouched_by_strangers : unpairedExample.IsFresh ∧
    (∀ d ∈ strangerDemands, ¬ d.Pairs unpairedExample.pin) ∧
    (unpairedExample.serveAll 1024 strangerDemands).Closed := by
  have hfresh : unpairedExample.IsFresh := ⟨rfl, rfl⟩
  have hunpaired : ∀ d ∈ strangerDemands, ¬ d.Pairs unpairedExample.pin := strangerDemands_unpaired
  exact ⟨hfresh, hunpaired,
    ((untouched_until_paired 1024 unpairedExample hfresh).1 strangerDemands hunpaired).1⟩

end Receiver
end FileReceiver
