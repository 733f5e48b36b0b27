/-
# What is asked of a receiver

A receiver is asked directly, by an operation, or by a request over HTTP. A
request over HTTP is never more than a detour: it leaves the receiver as it
is, or it leaves it as the one operation does that its route, its method and
its body spell out (`respond_cases`). So what every operation keeps, every
run of direct calls and requests keeps (`serveAll_induction`).

Key definitions: `Http.Request.operation?`, `Demand`, `Receiver.serve`,
`Receiver.serveAll`.
Key theorems: `Http.respond_cases`, `Receiver.serve_cases`,
`Receiver.serveAll_induction`.
-/
import FileReceiver.Http.Server

namespace FileReceiver

namespace Http

/-- The operation that a request asks for by its route, if its body can be read. -/
def Route.operation? (q : Request) : Route → Option Operation
  | connect => (readConnect q.body).toOption.map fun (pin, remote) => .pair pin remote
  | requestSend => (readSend q.body).toOption.map fun (id, manifest) => .openSession id manifest
  | cancelSend => (readCancel q.body).toOption.map .cancelSession
  | ping => none
  | fileData segment =>
    (Percent.decodeText? segment).map fun fileId =>
      .writeChunk (q.headerText? sessionHeader) fileId q.body

/-- The operation that a request asks for, if its route takes its method. -/
def Request.operation? (q : Request) : Option Operation :=
  match Route.ofPath? q.path with
  | none => none
  | some route => if route.methods.contains q.method then route.operation? q else none

theorem answerOf_receiver {α : Type} (served : Served α) (answer : α → Answer) :
    (answerOf served answer).2 = served.2 := by
  obtain ⟨e | a, r⟩ := served <;> rfl

theorem connect_cases (r : Receiver) (body : ByteArray) :
    (connect r body).2 = r ∨ ∃ pin remote, readConnect body = .ok (pin, remote) ∧
      (connect r body).2 = (r.pair pin remote).2 := by
  unfold connect
  cases h : readConnect body with
  | error e => exact Or.inl rfl
  | ok request =>
    obtain ⟨pin, remote⟩ := request
    exact Or.inr ⟨pin, remote, rfl, answerOf_receiver _ _⟩

theorem requestSend_cases (r : Receiver) (body : ByteArray) :
    (requestSend r body).2 = r ∨ ∃ id manifest, readSend body = .ok (id, manifest) ∧
      (requestSend r body).2 = (r.openForPeer id manifest).2 := by
  unfold requestSend
  split
  · exact Or.inl rfl
  · cases h : readSend body with
    | error e => exact Or.inl rfl
    | ok request =>
      obtain ⟨id, manifest⟩ := request
      exact Or.inr ⟨id, manifest, rfl, answerOf_receiver _ _⟩

theorem cancelSend_cases (r : Receiver) (body : ByteArray) :
    (cancelSend r body).2 = r ∨ ∃ id, readCancel body = .ok id ∧
      (cancelSend r body).2 = (r.cancelForPeer id).2 := by
  unfold cancelSend
  cases h : readCancel body with
  | error e => exact Or.inl rfl
  | ok id => exact Or.inr ⟨id, rfl, answerOf_receiver _ _⟩

/-- A body that is too long reaches no handler. -/
theorem withBody_cases (limit : Nat) (r : Receiver) (q : Request)
    (handler : ByteArray → Answer × Receiver) :
    (withBody limit r q handler).2 = r ∨
      (withBody limit r q handler).2 = (handler q.body).2 := by
  unfold withBody
  split
  · exact Or.inl rfl
  · exact Or.inr rfl

/-- A route leaves the receiver as it is, or as the operation does that it is asked for. -/
theorem handle_cases (limit : Nat) (r : Receiver) (q : Request) (route : Route) :
    (handle limit r q route).2 = r ∨
      ∃ o, route.operation? q = some o ∧ (handle limit r q route).2 = (r.perform o).2 := by
  cases route with
  | ping => exact Or.inl rfl
  | connect =>
    rcases withBody_cases limit r q (connect r) with h | h
    · exact Or.inl h
    rcases connect_cases r q.body with hc | ⟨pin, remote, hread, hc⟩
    · exact Or.inl (h.trans hc)
    · exact Or.inr ⟨.pair pin remote, by rw [Route.operation?, hread]; rfl, h.trans hc⟩
  | requestSend =>
    rcases withBody_cases limit r q (requestSend r) with h | h
    · exact Or.inl h
    rcases requestSend_cases r q.body with hc | ⟨id, manifest, hread, hc⟩
    · exact Or.inl (h.trans hc)
    · exact Or.inr ⟨.openSession id manifest, by rw [Route.operation?, hread]; rfl, h.trans hc⟩
  | cancelSend =>
    rcases withBody_cases limit r q (cancelSend r) with h | h
    · exact Or.inl h
    rcases cancelSend_cases r q.body with hc | ⟨id, hread, hc⟩
    · exact Or.inl (h.trans hc)
    · exact Or.inr ⟨.cancelSession id, by rw [Route.operation?, hread]; rfl, h.trans hc⟩
  | fileData segment =>
    simp only [handle, Route.operation?]
    cases hseg : Percent.decodeText? segment with
    | none => exact Or.inl rfl
    | some fileId =>
      rcases withBody_cases limit r q (fileData r (q.headerText? sessionHeader) fileId) with h | h
      · exact Or.inl h
      · exact Or.inr ⟨.writeChunk (q.headerText? sessionHeader) fileId q.body, rfl,
          h.trans (answerOf_receiver _ _)⟩

/-- A request leaves the receiver as it is, or as the operation does that it asks for. -/
theorem respond_cases (limit : Nat) (r : Receiver) (q : Request) :
    (respond limit r q).2 = r ∨
      ∃ o, q.operation? = some o ∧ (respond limit r q).2 = (r.perform o).2 := by
  unfold respond
  split
  · exact Or.inl rfl
  change (dispatch limit r q).2 = r ∨ ∃ o, _ ∧ (dispatch limit r q).2 = _
  unfold dispatch Request.operation?
  split
  · exact Or.inl rfl
  cases Route.ofPath? q.path with
  | none => exact Or.inl rfl
  | some route =>
    simp only
    split
    · exact handle_cases limit r q route
    · exact Or.inl rfl

end Http

/-- What can be asked of a receiver: an operation, directly, or a request over HTTP. -/
inductive Demand where
  | direct (o : Operation)
  | http (q : Http.Request)

/-- The operation that is asked for, if any. -/
def Demand.operation? : Demand → Option Operation
  | direct o => some o
  | http q => q.operation?

/-- What comes back. -/
inductive Reaction where
  | direct (result : Except Refusal Reply)
  | http (response : Http.Response)

namespace Receiver

/-- Does what is asked; requests over HTTP come through a server with the given limit for bodies. -/
def serve (limit : Nat) (r : Receiver) : Demand → Reaction × Receiver
  | .direct o => ((.direct (r.perform o).1), (r.perform o).2)
  | .http q => ((.http (Http.respond limit r q).1), (Http.respond limit r q).2)

/-- The receiver after everything that is asked. -/
def serveAll (limit : Nat) (r : Receiver) (demands : List Demand) : Receiver :=
  demands.foldl (fun r d => (r.serve limit d).2) r

theorem serveAll_cons (limit : Nat) (r : Receiver) (d : Demand) (demands : List Demand) :
    r.serveAll limit (d :: demands) = (r.serve limit d).2.serveAll limit demands := rfl

/-- Whatever is asked leaves the receiver as it is, or as the operation does that is asked for. -/
theorem serve_cases (limit : Nat) (r : Receiver) (d : Demand) :
    (r.serve limit d).2 = r ∨
      ∃ o, d.operation? = some o ∧ (r.serve limit d).2 = (r.perform o).2 := by
  cases d with
  | direct o => exact Or.inr ⟨o, rfl, rfl⟩
  | http q => exact Http.respond_cases limit r q

/-- What every operation that is asked for keeps is kept to the end. -/
theorem serveAll_induction {P : Receiver → Prop} (limit : Nat) (demands : List Demand)
    (step : ∀ d ∈ demands, ∀ o, d.operation? = some o → ∀ r, P r → P (r.perform o).2) :
    ∀ r, P r → P (r.serveAll limit demands) := by
  induction demands with
  | nil => exact fun r h => h
  | cons d demands ih =>
    intro r h
    rw [serveAll_cons]
    apply ih fun d' hd' => step d' (List.mem_cons_of_mem _ hd')
    rcases serve_cases limit r d with hs | ⟨o, ho, hs⟩
    · rw [hs]; exact h
    · rw [hs]; exact step d List.mem_cons_self o ho r h

end Receiver

end FileReceiver
