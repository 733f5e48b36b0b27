/-
# What strangers are told

As long as no peer is connected, a request to send is turned away before its
body is looked at: every body that the limit allows gets one and the same
response, by 403, and nothing changes. A request to cancel is read first. So
it is turned away like that only if its body names a session; a body that
cannot be read, and one that names none, are told what is wrong with them
(`Http.strangers_refused_iff`).

Key definitions: `Http.Request.Posts`, `Http.refusedWith`,
`CancelBody.Names`.
Key theorems: `Http.respond_posted`, `Http.respond_refused`,
`Http.strangers_refused_iff`.
-/
import FileReceiver.Proofs.Failures

namespace FileReceiver

/-- A body that can be read as a request to cancel and names a session. -/
def CancelBody.Names (body : ByteArray) (id : String) : Prop :=
  CancelBody.schema.ofText body.toList = .ok ⟨some id⟩ ∧ id ≠ ""

namespace Http

variable {limit : Nat} {r : Receiver} {q : Request} {route : Route}

/-- A request that posts a body to a route, no longer than the limit allows and the request
declares. -/
structure Request.Posts (q : Request) (limit : Nat) (route : Route) : Prop where
  method : q.method = "POST"
  path : Route.ofPath? q.path = some route
  declared : exceeds limit q = false
  body : q.body.size ≤ bodyLimit limit q

/-- The response to a posted request that is refused. -/
def refusedWith (e : Refusal) : Response where
  status := e.status
  headers := standingHeaders ++ [("content-type", "application/json; charset=utf-8")]
  body := e.body.compact

/-! ### Posted requests -/

/-- A posted request comes to the handler of its route. -/
theorem respond_posted (h : q.Posts limit route) (htakes : route.methods.contains "POST" = true)
    (r : Receiver) :
    respond limit r q =
      (finish q (handle limit r q route).1 [], (handle limit r q route).2) := by
  have hoptions : ¬ q.method = "OPTIONS" := by rw [h.method]; decide
  have hmethod : route.methods.contains q.method = true := by rw [h.method]; exact htakes
  rw [respond, if_neg hoptions, dispatch, h.declared, if_neg Bool.false_ne_true, h.path]
  simp only [hmethod, if_true]

/-- What the handler of a posted request refuses is what the response tells. -/
theorem respond_refused (h : q.Posts limit route) (htakes : route.methods.contains "POST" = true)
    {e : Refusal} (hrefused : handle limit r q route = (refusalAnswer e, r)) :
    respond limit r q = (refusedWith e, r) := by
  have hhead : ¬ q.method = "HEAD" := by rw [h.method]; decide
  have hallow : allowHeaders q = [] := by
    rw [allowHeaders, h.path, h.method]
    exact if_pos htakes
  rw [respond_posted h htakes, hrefused, finish, hallow, if_neg hhead]
  rfl

/-! ### Before the pairing -/

/-- **A request to send is turned away unread.** -/
theorem respond_send_without_peer (hpeer : r.peer = none) (h : q.Posts limit .requestSend) :
    respond limit r q = (refusedWith .notPaired, r) := by
  refine respond_refused h (by decide) ?_
  rw [handle, withBody_of_le h.body, Receiver.requestSend_without_peer hpeer]

/-- What a stranger is told about a request to cancel. -/
def cancelRefusal (body : ByteArray) : Refusal :=
  match readCancel body with
  | .ok _ => .notPaired
  | .error e => e

/-- **A request to cancel is read first.** -/
theorem respond_cancel_without_peer (hpeer : r.peer = none) (h : q.Posts limit .cancelSend) :
    respond limit r q = (refusedWith (cancelRefusal q.body), r) := by
  refine respond_refused h (by decide) ?_
  rw [handle, withBody_of_le h.body, Receiver.cancelSend_without_peer hpeer]
  rfl

/-- What is told is that there is no pairing if a session is named, and else what is wrong with the
body. -/
theorem cancelRefusal_cases (body : ByteArray) :
    (∃ id, CancelBody.Names body id) ∧ cancelRefusal body = .notPaired ∨
      (¬ ∃ b, CancelBody.schema.ofText body.toList = .ok b) ∧
        cancelRefusal body = .invalid .notJson ∨
      (∃ b, CancelBody.schema.ofText body.toList = .ok b ∧
          (b.sessionId = none ∨ b.sessionId = some "")) ∧
        cancelRefusal body = .invalid .missingSession := by
  unfold cancelRefusal CancelBody.Names readCancel readBody
  cases CancelBody.schema.ofText body.toList with
  | error e => exact Or.inr (Or.inl ⟨by simp, rfl⟩)
  | ok b =>
    obtain ⟨_ | id⟩ := b
    · exact Or.inr (Or.inr ⟨⟨_, rfl, Or.inl rfl⟩, rfl⟩)
    by_cases hid : id = ""
    · subst hid
      exact Or.inr (Or.inr ⟨⟨_, rfl, Or.inr rfl⟩, rfl⟩)
    · refine Or.inl ⟨⟨id, rfl, hid⟩, ?_⟩
      simp only [bind, Except.bind, nonempty?, if_neg hid]

/-- Only who names a session is told that there is no pairing. -/
theorem refusedWith_cancelRefusal (body : ByteArray) :
    refusedWith (cancelRefusal body) = refusedWith .notPaired ↔
      ∃ id, CancelBody.Names body id := by
  -- the statuses tell the refusals apart
  have hother {e : Invalidity} (he : cancelRefusal body = .invalid e) :
      refusedWith (cancelRefusal body) ≠ refusedWith .notPaired := fun hsame => by
    rw [he] at hsame
    exact absurd (congrArg Response.status hsame) (by decide : ¬ 400 = 403)
  rcases cancelRefusal_cases body with ⟨hnames, he⟩ | ⟨hunread, he⟩ | ⟨⟨b, hread, hnone⟩, he⟩
  · exact ⟨fun _ => hnames, fun _ => by rw [he]⟩
  · refine ⟨fun hsame => absurd hsame (hother he), ?_⟩
    rintro ⟨id, hread, -⟩
    exact absurd ⟨_, hread⟩ hunread
  · refine ⟨fun hsame => absurd hsame (hother he), ?_⟩
    rintro ⟨id, hread', hid⟩
    rw [hread] at hread'
    cases hread'
    rcases hnone with hnone | hnone
    · cases hnone
    · exact absurd (Option.some.inj hnone) hid

/-- **Strangers are turned away, once they ask properly.** As long as no peer is connected, a
request to send gets one and the same response whatever its body, and nothing changes. A request to
cancel changes nothing either, but gets that response just if its body can be read and names a
session; else it is told by 400 what is wrong with the body. -/
theorem strangers_refused_iff (limit : Nat) (hpeer : r.peer = none) :
    (refusedWith .notPaired).status = 403 ∧
    (refusedWith .notPaired).message? = some "No active connection. Please /connect first." ∧
    (∀ q : Request, q.Posts limit .requestSend →
      respond limit r q = (refusedWith .notPaired, r)) ∧
    ∀ q : Request, q.Posts limit .cancelSend →
      (respond limit r q).2 = r ∧
      ((respond limit r q).1 = refusedWith .notPaired ↔ ∃ id, CancelBody.Names q.body id) ∧
      ((¬ ∃ b, CancelBody.schema.ofText q.body.toList = .ok b) ∧
          (respond limit r q).1 = refusedWith (.invalid .notJson) ∨
        (∃ b, CancelBody.schema.ofText q.body.toList = .ok b ∧
            (b.sessionId = none ∨ b.sessionId = some "")) ∧
          (respond limit r q).1 = refusedWith (.invalid .missingSession) ∨
        ∃ id, CancelBody.Names q.body id) := by
  refine ⟨rfl, by decide +kernel, fun q hposts => respond_send_without_peer hpeer hposts,
    fun q hposts => ?_⟩
  rw [respond_cancel_without_peer hpeer hposts]
  refine ⟨rfl, refusedWith_cancelRefusal q.body, ?_⟩
  rcases cancelRefusal_cases q.body with ⟨hnames, -⟩ | ⟨hunread, he⟩ | ⟨hnone, he⟩
  · exact Or.inr (Or.inr hnames)
  · exact Or.inl ⟨hunread, by rw [he]⟩
  · exact Or.inr (Or.inl ⟨hnone, by rw [he]⟩)

/-- A body that nobody can read, posted to the given path. -/
def unreadablePost (target : String) : Request := ⟨"POST", target, [], ⟨#[0xFF]⟩⟩

/-- A request to cancel some session. -/
def cancelRequest : Request :=
  ⟨"POST", "/cancel-send", [], "\x7b\"session_id\":\"s\"\x7d".toUTF8⟩

theorem strangers_refused :
    Receiver.unpairedExample.peer = none ∧
      respond 1024 Receiver.unpairedExample (unreadablePost "/request-send") =
        (refusedWith .notPaired, Receiver.unpairedExample) ∧
      (respond 1024 Receiver.unpairedExample cancelRequest).1 = refusedWith .notPaired := by
  obtain ⟨-, -, hsend, hcancel⟩ :=
    strangers_refused_iff 1024 (r := Receiver.unpairedExample) rfl
  have hread : (CancelBody.schema.ofText cancelRequest.body.toList).toOption.map
      CancelBody.sessionId = some (some "s") := by decide +kernel
  have hnames : CancelBody.Names cancelRequest.body "s" := by
    obtain ⟨⟨_⟩, hbody, rfl⟩ := Option.map_eq_some_iff.mp hread
    exact ⟨Json.toOption_eq_some hbody, by decide⟩
  exact ⟨rfl, hsend _ ⟨rfl, by decide +kernel, by decide +kernel, by decide +kernel⟩,
    (hcancel _ ⟨rfl, by decide +kernel, by decide +kernel, by decide +kernel⟩).2.1.mpr ⟨_, hnames⟩⟩

/-- A stranger whose request to cancel cannot be read is told that, and not that there is no
pairing, which is what the same body gets where it asks to send. -/
theorem unreadable_cancel_explained :
    (respond 1024 Receiver.unpairedExample (unreadablePost "/cancel-send")).1.status = 400 ∧
      (respond 1024 Receiver.unpairedExample (unreadablePost "/cancel-send")).1.message? =
        some "Invalid JSON format" ∧
      (respond 1024 Receiver.unpairedExample (unreadablePost "/request-send")).1.status = 403 := by
  decide +kernel

end Http
end FileReceiver
