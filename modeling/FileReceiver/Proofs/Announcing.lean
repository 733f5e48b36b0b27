/-
# What a receiver says about itself

A running receiver tells who it is in its announcements and in its answers to
those who ask or pair (`Running.Tells`). It is one identity everywhere and at
all times, made of the settings before the port is taken
(`Running.tells_iff`, `start_ok`). Nobody looks at these settings: other
devices take the identity of a peer only if it has a name, while the name of
the receiver itself may be blank; and the port that was asked for is the port
that it listens at, unless any port was asked for (`identity_usable_iff`).

Key definitions: `Machine.Usual`, `Http.Response.identity?`, `Running.Tells`.
Key theorems: `start_ok`, `Http.dispatch_tells`, `Running.tells_iff`,
`identity_usable_iff`.
-/
import FileReceiver.Proofs.Credentials
import FileReceiver.Proofs.Failures
import FileReceiver.Proofs.Uploading

namespace FileReceiver

open Json (Value)

/-! ### The identity stays -/

namespace Receiver

theorem Move.device_eq {r r' : Receiver} {o : Operation} (h : r.Move o r') :
    r'.device = r.device := by
  cases h <;> rfl

/-- Whatever is asked of a receiver, it stays who it is. -/
theorem device_serveAll (limit : Nat) (r : Receiver) (demands : List Demand) :
    (r.serveAll limit demands).device = r.device :=
  serveAll_induction (P := fun r' => r'.device = r.device) limit demands
    (fun _ _ o _ r' h => (perform_moves r' o).device_eq.trans h) r rfl

theorem pair_device {r r' : Receiver} {pin : String} {remote : Device} {p : Paired}
    (h : r.pair pin remote = (.ok p, r')) : p.device = r.device := by
  unfold pair at h
  repeat' split at h
  all_goals cases h
  rfl

end Receiver

/-! ### Answers that tell it -/

namespace Http

variable {r : Receiver} {limit : Nat} {q : Request} {a : Answer} {d : Device}

/-- The identity that is found in the body of a response when it is read. -/
def Response.identity? (response : Response) : Option Device :=
  match Json.readDocument response.body.toUTF8.toList with
  | .error _ => none
  | .ok v => (v.member? "device_info").bind fun device => (Device.schema.ofValue device).toOption

/-- A request that asks who the receiver is, or asks to pair. -/
def Request.AsksWho (q : Request) : Prop :=
  Route.ofPath? q.path = some .ping ∨ Route.ofPath? q.path = some .connect

/-- An answer that tells an identity, beside other things. -/
def Answer.Tells (a : Answer) (d : Device) : Prop :=
  ∃ others, a.content = .json (.object (("device_info", Device.schema.toValue d) :: others)) ∧
    ("device_info" :: others.map (·.1)).Nodup ∧ ∀ m ∈ others, m.2.IsScalar

theorem ping_tells (r : Receiver) : (ping r).Tells r.device :=
  ⟨_, rfl, by simp, by simp [Value.IsScalar]⟩

theorem connect_tells {body : ByteArray} (h : (connect r body).1.status = 200) :
    (connect r body).1.Tells r.device := by
  unfold connect at h ⊢
  split at h
  · exact absurd h (refusalAnswer_status _)
  rename_i pin remote hread
  rcases hpair : r.pair pin remote with ⟨e | p, r'⟩
  · rw [hpair] at h
    exact absurd h (refusalAnswer_status _)
  · rw [← Receiver.pair_device hpair]
    exact ⟨_, rfl, by simp, by simp [Value.IsScalar]⟩

/-- **Who asks for the identity and is not refused is told it.** -/
theorem dispatch_tells (hwho : q.AsksWho) (hstatus : (dispatch limit r q).1.status = 200) :
    (dispatch limit r q).1.Tells r.device := by
  unfold dispatch at hstatus ⊢
  by_cases hlength : exceeds limit q = true
  · rw [if_pos hlength] at hstatus
    cases hstatus
  rw [if_neg hlength] at hstatus ⊢
  rcases hwho with hroute | hroute
  all_goals
    rw [hroute] at hstatus ⊢
    dsimp only at hstatus ⊢
    split at hstatus
    case isFalse => cases hstatus
    rename_i hmethod
    rw [if_pos hmethod]
  · exact ping_tells r
  · rw [handle, withBody] at hstatus ⊢
    by_cases hbody : bodyLimit limit q < q.body.size
    · rw [if_pos hbody] at hstatus
      cases hstatus
    · rw [if_neg hbody] at hstatus ⊢
      exact connect_tells hstatus

/-- An identity that an answer tells is found when its body is read. -/
theorem identity?_written {response : Response} (hbody : response.body = a.content.written)
    (h : a.Tells d) : response.identity? = some d := by
  obtain ⟨others, hcontent, hnodup, hscalars⟩ := h
  have hlawful := Device.isLawful
  let identity : Value := .object (Json.gathered (Device.schema.membersOf d))
  let ms := ("device_info", Device.schema.toValue d, identity) ::
    others.map fun m => (m.1, m.2, m.2)
  have hmembers : ∀ m ∈ ms, Json.Restores (Json.readValue 126) m.2.1.compactChars m.2.2 := by
    refine List.forall_mem_cons.mpr ⟨Json.Schema.restores_value hlawful 125 d, fun m hm => ?_⟩
    obtain ⟨m', hm', rfl⟩ := List.mem_map.mp hm
    exact Json.restores_compact (hscalars m' hm') 126
  have hread := Json.readDocument_object hmembers
  simp only [ms, List.map_cons, List.map_map, Function.comp_def, List.map_id'] at hread
  have hmember : (Value.object (Json.gathered (("device_info", identity) :: others))).member?
      "device_info" = some identity := Json.member?_gathered hnodup List.mem_cons_self
  have hdevice : Device.schema.ofValue identity = .ok d := (Json.Schema.ofValue_written hlawful).2
  rw [Response.identity?, hbody, hcontent, Content.written, hread]
  dsimp only
  rw [hmember, Option.bind_some, hdevice, Except.toOption]

/-- Nothing is found in an empty body. -/
theorem identity?_empty {response : Response} (hbody : response.body = "") :
    response.identity? = none := by
  unfold Response.identity?
  rw [hbody]
  decide +kernel

/-- **Whoever asks for the identity and gets an answer finds it there**, if more than the head of
the answer was asked for, and finds no other. -/
theorem respond_identity (hwho : q.AsksWho) (hstatus : (respond limit r q).1.status = 200) :
    (respond limit r q).1.identity? =
      if q.method = "OPTIONS" ∨ q.method = "HEAD" then none else some r.device := by
  by_cases hoptions : q.method = "OPTIONS"
  · rw [if_pos (Or.inl hoptions)]
    have hresponse : (respond limit r q).1 = finish q ⟨200, .nothing⟩ optionHeaders := by
      rw [respond, if_pos hoptions]
    refine identity?_empty ?_
    rw [hresponse, finish, Content.written, ite_self]
  have hresponse : (respond limit r q).1 = finish q (dispatch limit r q).1 [] := by
    rw [respond, if_neg hoptions]
  rw [hresponse] at hstatus ⊢
  by_cases hhead : q.method = "HEAD"
  · rw [if_pos (Or.inr hhead)]
    exact identity?_empty (if_pos hhead)
  · rw [if_neg (not_or.mpr ⟨hoptions, hhead⟩)]
    exact identity?_written (if_neg hhead) (dispatch_tells hwho hstatus)

/-- A request without headers declares no length. -/
theorem exceeds_bare (h : q.headers = []) : exceeds limit q = false := by
  have hnone : q.declaredLength? = none := by
    rw [Request.declaredLength?, Request.headerText?, Request.header?, h]
    rfl
  rw [exceeds, hnone]

/-- A request that asks who the receiver is. -/
def pingRequest : Request := ⟨"GET", "/ping", [], .empty⟩

theorem route_ping : Route.ofPath? pingRequest.path = some .ping := by
  decide +kernel

theorem respond_ping : (respond limit r pingRequest).1.status = 200 := by
  have hmethod : Route.ping.methods.contains pingRequest.method = true := by decide
  have hdispatch : dispatch limit r pingRequest = (ping r, r) := by
    rw [dispatch, exceeds_bare rfl, if_neg Bool.false_ne_true, route_ping]
    dsimp only
    rw [if_pos hmethod, handle]
  rw [respond, if_neg (by decide), hdispatch]
  rfl

end Http

/-! ### A running receiver -/

/-- A machine like every other: its id is made when the receiver starts, the port that is asked for
is the port that is taken, and some port is taken when any is asked for. -/
structure Machine.Usual (m : Machine) : Prop where
  deviceId : ∃ millis number, m.deviceId = Device.idOf millis number
  asked : ∀ p q, p ≠ 0 → m.bind p = some q → q = p
  any : ∀ q, m.bind 0 = some q → q ≠ 0

namespace Running

variable {r : Running} {d : Device}

/-- What a running receiver says that it is, whatever has been asked of it before. -/
inductive Tells (r : Running) : Device → Prop
  | announced {text : String} {d : Device} (h : r.announcement? = some text)
      (hread : Device.schema.ofText text.toUTF8.toList = .ok d) : r.Tells d
  | answered (demands : List Demand) {q : Http.Request} {d : Device} (hwho : q.AsksWho)
      (hstatus : (Http.respond r.maxBody (r.receiver.serveAll r.maxBody demands) q).1.status = 200)
      (hread : (Http.respond r.maxBody (r.receiver.serveAll r.maxBody demands) q).1.identity? =
        some d) : r.Tells d

/-- **A running receiver says that it is one device**, whoever asks, and after whatever. -/
theorem tells_iff : r.Tells d ↔ d = r.receiver.device := by
  constructor
  · intro h
    cases h with
    | announced h hread =>
      have hback := Discovery.datagram_back h
      rw [hread] at hback
      exact Except.ok.inj hback
    | @answered demands q _ hwho hstatus hread =>
      rw [Http.respond_identity hwho hstatus, Receiver.device_serveAll] at hread
      split at hread
      · cases hread
      · exact (Option.some.inj hread).symm
  · rintro rfl
    have hwho : Http.pingRequest.AsksWho := Or.inl Http.route_ping
    have hstatus : (Http.respond r.maxBody r.receiver Http.pingRequest).1.status = 200 :=
      Http.respond_ping
    refine .answered [] hwho hstatus ?_
    exact (Http.respond_identity hwho hstatus).trans (if_neg (by decide))

end Running

/-! ### Starting -/

variable {m : Machine} {s : Settings} {t : TlsSettings} {d : Disk} {r : Running}

/-- What a receiver is made of that starts. -/
theorem start_ok (h : (start m s t d).1 = .ok r) :
    r.receiver.device = Device.ofMachine m s ∧ m.bind s.port = some r.port := by
  unfold start at h
  split at h
  · cases h
  dsimp only at h
  split at h
  · cases h
  rename_i port hport
  rw [← Except.ok.inj h]
  exact ⟨rfl, hport⟩

/-- An identity lacks nothing if its id and its name are not blank. -/
theorem Device.missing?_eq_none_iff {device : Device} : device.missing? = none ↔
    Text.isBlankText device.id = false ∧ Text.isBlankText device.nickname = false := by
  unfold missing?
  cases Text.isBlankText device.id <;> cases Text.isBlankText device.nickname <;> decide

theorem isBlankText_idOf (millis number : Nat) :
    Text.isBlankText (Device.idOf millis number) = false := by
  have hmem : '_' ∈ (Device.idOf millis number).toList := by
    simp [Device.idOf]
  rw [Text.isBlankText, List.all_eq_false]
  exact ⟨'_', hmem, by decide⟩

/-- **The identity is usable just as far as the settings make it so.** Whatever a receiver says that
it is, in announcements, to those who ask and to those who pair, after whatever has been asked of it
before, it is the identity that its settings make. It has an id and a name if the alias in the
settings is not blank, and else it has none that a peer would take; its port is the one that it
listens at if the settings name a port, and else it is not. An announcement can always be read, and
so can every answer to who asks or pairs. -/
theorem identity_usable_iff (hm : m.Usual) (h : (start m s t d).1 = .ok r) :
    (∀ device, r.Tells device ↔ device = Device.ofMachine m s) ∧
    (∀ device, r.Tells device →
      (device.missing? = none ↔ Text.isBlankText s.nickname = false) ∧
      (device.port = r.port ↔ s.port ≠ 0)) ∧
    (∀ text, r.announcement? = some text →
      ∃ device, Device.schema.ofText text.toUTF8.toList = .ok device) ∧
    (∀ demands q, Http.Request.AsksWho q → q.method ≠ "OPTIONS" → q.method ≠ "HEAD" →
      (Http.respond r.maxBody (r.receiver.serveAll r.maxBody demands) q).1.status = 200 →
      ∃ device, (Http.respond r.maxBody (r.receiver.serveAll r.maxBody demands) q).1.identity? =
        some device) := by
  obtain ⟨hdevice, hbind⟩ := start_ok h
  have htells : ∀ device, r.Tells device ↔ device = Device.ofMachine m s := fun device => by
    rw [Running.tells_iff, hdevice]
  refine ⟨htells, fun device hd => ?_, fun text htext => ⟨_, Discovery.datagram_back htext⟩,
    fun demands q hwho hoptions hhead hstatus => ⟨_, (Http.respond_identity hwho hstatus).trans
      (if_neg (not_or.mpr ⟨hoptions, hhead⟩))⟩⟩
  · rw [(htells device).mp hd]
    obtain ⟨millis, number, hid⟩ := hm.deviceId
    have hnamed : Text.isBlankText m.deviceId = false := by
      rw [hid]
      exact isBlankText_idOf millis number
    constructor
    · rw [Device.missing?_eq_none_iff]
      exact and_iff_right hnamed
    · change s.port = r.port ↔ s.port ≠ 0
      constructor
      · intro hsame hzero
        rw [hzero] at hsame hbind
        exact hm.any _ hbind hsame.symm
      · intro hport
        exact (hm.asked _ _ hport hbind).symm

theorem freeMachine_usual : freeMachine.Usual where
  deviceId := ⟨_, _, rfl⟩
  asked p q hp h := by
    have htaken : (if p = 0 then 49152 else p) = q := Option.some.inj h
    rw [← htaken, if_neg hp]
  any q h := by
    rw [← Option.some.inj h]
    decide

theorem freeMachine_starts (h : (start freeMachine s t d).1.toOption.isSome = true) :
    ∃ r, (start freeMachine s t d).1 = .ok r := by
  cases hstart : (start freeMachine s t d).1 with
  | error e =>
    rw [hstart] at h
    cases h
  | ok r => exact ⟨r, rfl⟩

/-- By the default settings a receiver starts on an empty disk, and what it says can be used. -/
theorem default_identity_usable :
    freeMachine.Usual ∧ ∃ r, (run freeMachine {} { entries := ∅ }).1 = .ok r ∧
      ∀ device, r.Tells device → device.missing? = none ∧ device.port = r.port := by
  obtain ⟨r, hr⟩ := freeMachine_starts (s := {}) (t := TlsSettings.ofSettings {})
    (d := { entries := ∅ }) (by decide +kernel)
  have husable := (identity_usable_iff freeMachine_usual hr).2.1
  exact ⟨freeMachine_usual, r, hr, fun device htells =>
    ⟨(husable device htells).1.mpr (by decide), (husable device htells).2.mpr (by decide)⟩⟩

/-- With a blank alias and any port a receiver starts and says that it has no name, and that it
listens where it does not. -/
theorem nameless_identity :
    let s : Settings := { nickname := "  ", port := 0 }
    ∃ r device, (run freeMachine s { entries := ∅ }).1 = .ok r ∧ r.Tells device ∧
      device.missing? = some .nickname ∧ device.port = 0 ∧ r.port = 49152 := by
  intro s
  obtain ⟨r, hr⟩ := freeMachine_starts (s := s) (t := TlsSettings.ofSettings s)
    (d := { entries := ∅ }) (by decide +kernel)
  obtain ⟨hdevice, hbind⟩ := start_ok hr
  refine ⟨r, _, hr, Running.tells_iff.mpr rfl, ?_, ?_, (Option.some.inj hbind).symm⟩
  · rw [hdevice]
    decide
  · rw [hdevice]
    rfl

end FileReceiver
