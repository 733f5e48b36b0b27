/-
# Operations as calls on a disk

Whatever an operation does to a disk it does by calls, and which call comes
next hangs on nothing but the receiver and the answers to the calls before. So
an operation is a routine: a call, and how to go on with each answer
(`Routine`). Its routine, run on any disk, gives what the operation gives
there (`perform_eq`), and what holds of every call that a routine may make,
whatever the answers are, can be read off the routine (`Routine.Makes`). To
take a chunk needs calls on the two paths of its file, to cancel a session
calls on the staging paths of its files, and to open one calls on the folder
for received files and the folders that it stands in (`makes_performing`).

Key definitions: `Call`, `Routine`, `Routine.run`, `Routine.Makes`,
`Transfer.receiving`, `Session.cancelling`, `Receiver.performing`.
Key theorems: `Transfer.run_receiving`, `Receiver.perform_eq`,
`Transfer.makes_receiving`, `Receiver.makes_performing`.
-/
import FileReceiver.Receiver
import Mathlib.Tactic.Simps.Basic

namespace FileReceiver

/-- A call on a disk, by the type of its answer. A file that has been opened is known by its
location. -/
inductive Call : Type → Type where
  | openFresh (p : Path) (mode : Nat) : Call (Except SystemError Location)
  | openEnd (p : Path) : Call (Except SystemError Location)
  | write (file : Location) (bytes : ByteArray) : Call (Except SystemError Unit)
  | setLength (file : Location) (length : Nat) : Call (Except SystemError Unit)
  | read (p : Path) : Call (Except SystemError ByteArray)
  | remove (p : Path) : Call (Except SystemError Unit)
  | rename (old new : Path) : Call (Except SystemError Unit)
  | probe (p : Path) : Call Bool
  | makeFolder (p : Path) : Call (Except SystemError Unit)
  | isFolder (p : Path) : Call Bool

namespace Call

variable {A : Type}

/-- Makes the call: its answer, and the disk after it. -/
def make (d : Disk) : Call A → A × Disk
  | openFresh p mode => d.openFresh p mode
  | openEnd p => d.openEnd p
  | write file bytes => d.write file bytes
  | setLength file length => d.setLength file length
  | read p => d.read p
  | remove p => d.remove p
  | rename old new => d.rename old new
  | probe p => d.probe p
  | makeFolder p => d.makeFolder p
  | isFolder p => (d.isFolder p, d)

/-- The file that a call opens by its answer. -/
def opened : Call A → A → List Location
  | openFresh _ _, .ok file | openEnd _, .ok file => [file]
  | _, _ => []

/-- The call is about files: it is given paths of which `P` holds, or one of the open files. -/
def OnFiles (P : Path → Prop) (files : List Location) : Call A → Prop
  | openFresh p _ | openEnd p | read p | remove p => P p
  | rename old new => P old ∧ P new
  | write file _ | setLength file _ => file ∈ files
  | probe _ | makeFolder _ | isFolder _ => False

/-- The call asks for a folder, or makes one, at a path of which `P` holds. -/
def OnFolders (P : Path → Prop) (_ : List Location) : Call A → Prop
  | probe p | makeFolder p | isFolder p => P p
  | _ => False

end Call

/-- A routine of calls: what it gives, or a call and how it goes on with the answer. -/
inductive Routine (α : Type) : Type 1 where
  | done (a : α)
  | call {A : Type} (c : Call A) (next : A → Routine α)

namespace Routine

variable {α β A : Type}

/-- Goes on with what a routine gives. -/
def andThen (f : α → Routine β) : Routine α → Routine β
  | done a => f a
  | call c next => call c fun answer => (next answer).andThen f

instance : Monad Routine where
  pure := done
  bind p f := p.andThen f

/-- The routine of one call. -/
def ask (c : Call A) : Routine A := call c done

/-- Runs a routine on a disk. -/
def run : Routine α → Disk → α × Disk
  | done a, d => (a, d)
  | call c next, d => (next (c.make d).1).run (c.make d).2

/-- Every call that the routine may make, whatever is answered, is such as `P` says of it and of
the files that are open. -/
def Makes (P : {A : Type} → List Location → Call A → Prop) :
    List Location → Routine α → Prop
  | _, done _ => True
  | files, call c next => P files c ∧ ∀ answer, Makes P (c.opened answer ++ files) (next answer)

@[simp]
theorem run_pure (a : α) (d : Disk) : (pure a : Routine α).run d = (a, d) := rfl

@[simp]
theorem run_ask (c : Call A) (d : Disk) : (ask c).run d = c.make d := rfl

@[simp]
theorem run_bind (p : Routine α) (f : α → Routine β) (d : Disk) :
    (p >>= f).run d = (f (p.run d).1).run (p.run d).2 := by
  change (p.andThen f).run d = _
  induction p generalizing d with
  | done a => rfl
  | call c next ih => exact ih _ _

variable {P : {A : Type} → List Location → Call A → Prop} {files : List Location}

theorem makes_ask {c : Call A} {f : A → Routine β} (hc : P files c)
    (hf : ∀ answer, (f answer).Makes P (c.opened answer ++ files)) :
    (ask c >>= f).Makes P files :=
  ⟨hc, hf⟩

/-- A routine that goes on with what another gives, with the files that the other has opened. -/
theorem Makes.bind {p : Routine α} {f : α → Routine β} (hp : p.Makes P files)
    (hf : ∀ a more, (f a).Makes P more) : (p >>= f).Makes P files := by
  change (p.andThen f).Makes P files
  induction p generalizing files with
  | done a => exact hf a files
  | call c next ih => exact ⟨hp.1, fun answer => ih answer (hp.2 answer)⟩

end Routine

open Routine (ask)

/-! ### Taking a chunk -/

namespace Transfer

/-- Writes a chunk to the staging file that has been opened, and cuts off what a failing write
leaves behind. -/
def writing (t : Transfer) (bytes : ByteArray) :
    Except SystemError Location → Routine (Except SystemError Unit)
  | .error e => return .error e
  | .ok file => do
    match ← ask (.write file bytes) with
    | .ok () => return .ok ()
    | .error e =>
      let _ ← ask (.setLength file t.received)
      return .error e

/-- Puts a chunk behind what has come. -/
def appending (t : Transfer) (bytes : ByteArray) : Routine (Except SystemError Unit) :=
  if 0 < t.received then ask (.openEnd t.stagingPath) >>= t.writing bytes
  else ask (.openFresh t.stagingPath Disk.privateMode) >>= t.writing bytes

/-- Removes a file that must not stand at a path. -/
def clearing (p : Path) : Routine (Except SystemError Unit) := do
  match ← ask (.remove p) with
  | .ok () => return .ok ()
  | .error e => return if e = .noEntry then .ok () else .error e

/-- Moves the staging file to the final path. -/
def promoting (t : Transfer) : Routine (Except SystemError Unit) := do
  match ← clearing t.finalPath with
  | .error e => return .error e
  | .ok () => ask (.rename t.stagingPath t.finalPath)

/-- Completes a transfer whose hash has been compared. -/
def concluding (t : Transfer) : Routine (ChunkResult × Transfer) := do
  match ← t.promoting with
  | .error e => return (.failed e, t)
  | .ok () => return (t.completion, { t with completed := true })

/-- Completes a transfer whose bytes have all come: the announced hash is compared, if there is
one. -/
def finishing (t : Transfer) : Routine (ChunkResult × Transfer) :=
  match t.hash with
  | none => t.concluding
  | some announced => do
    match ← ask (.read t.stagingPath) with
    | .error e => return (.failed e, t)
    | .ok content =>
      concluding { t with
        hashVerified := some (FileHash.agree announced (FileHash.ofContent content)) }

/-- Takes a chunk. -/
def receiving (t : Transfer) (bytes : ByteArray) : Routine (ChunkResult × Transfer) :=
  if t.completed then return (.alreadyCompleted, t)
  else do
    match ← t.appending bytes with
    | .error e => return (.failed e, t)
    | .ok () =>
      let t := { t with received := t.received + bytes.size }
      if t.received < t.declaredSize.toNat then return (.taken, t) else t.finishing

variable (t : Transfer) (bytes : ByteArray) (d : Disk)

theorem run_writing (file : Location) :
    (t.writing bytes (.ok file)).run d =
      match d.write file bytes with
      | (.ok (), d) => (.ok (), d)
      | (.error e, d) => (.error e, (d.setLength file t.received).2) := by
  simp only [writing, Routine.run_bind, Routine.run_ask, Call.make]
  rcases d.write file bytes with ⟨_ | ⟨⟨⟩⟩, written⟩ <;> rfl

theorem run_appending : (t.appending bytes).run d = t.append bytes d := by
  unfold appending append openStaging
  split <;>
  · simp only [Routine.run_bind, Routine.run_ask, Call.make]
    split
    · rename_i heq
      rw [heq]
      rfl
    · rename_i heq
      rw [heq]
      exact t.run_writing bytes _ _

theorem run_clearing (p : Path) : (clearing p).run d = clear p d := by
  simp only [clearing, clear, Routine.run_bind, Routine.run_ask, Call.make]
  rcases d.remove p with ⟨e | ⟨⟨⟩⟩, removed⟩
  · by_cases he : e = .noEntry
    · simp [he]
    · simp [he]
  · rfl

theorem run_promoting : t.promoting.run d = t.promote d := by
  simp only [promoting, promote, Routine.run_bind, run_clearing]
  rcases clear t.finalPath d with ⟨_ | ⟨⟨⟩⟩, cleared⟩ <;> rfl

theorem run_concluding : t.concluding.run d =
    match t.promote d with
    | (.error e, d) => ((.failed e, t), d)
    | (.ok (), d) => ((t.completion, { t with completed := true }), d) := by
  simp only [concluding, Routine.run_bind, run_promoting]
  rcases t.promote d with ⟨_ | ⟨⟨⟩⟩, promoted⟩ <;> rfl

theorem run_finishing :
    t.finishing.run d = (((t.finish d).1, (t.finish d).2.1), (t.finish d).2.2) := by
  unfold finishing finish verify
  cases t.hash with
  | none =>
    simp only [run_concluding]
    rcases t.promote d with ⟨_ | ⟨⟨⟩⟩, promoted⟩ <;> rfl
  | some announced =>
    simp only [Routine.run_bind, Routine.run_ask, Call.make]
    rcases d.read t.stagingPath with ⟨_ | content, compared⟩
    · rfl
    · simp only [run_concluding]
      split <;> simp_all

/-- **A chunk is taken by calls.** -/
theorem run_receiving : (t.receiving bytes).run d =
    (((t.receive bytes d).1, (t.receive bytes d).2.1), (t.receive bytes d).2.2) := by
  unfold receiving receive
  split
  · rfl
  · simp only [Routine.run_bind, run_appending]
    rcases t.append bytes d with ⟨_ | ⟨⟨⟩⟩, appended⟩
    · rfl
    · dsimp only
      split
      · rfl
      · exact run_finishing _ appended

/-! The calls are made on the two paths of the transfer. -/

section

variable {P : Path → Prop} {files : List Location}

theorem makes_writing (answer : Except SystemError Location)
    (hfile : ∀ file, answer = .ok file → file ∈ files) :
    (t.writing bytes answer).Makes (Call.OnFiles P) files := by
  cases answer with
  | error e => trivial
  | ok file =>
    have hmem := hfile file rfl
    refine Routine.makes_ask hmem fun written => ?_
    cases written with
    | ok => trivial
    | error e => exact Routine.makes_ask hmem fun _ => trivial

theorem makes_appending (hstaging : P t.stagingPath) :
    (t.appending bytes).Makes (Call.OnFiles P) files := by
  unfold appending
  split <;>
  · refine Routine.makes_ask hstaging fun answer => t.makes_writing bytes answer ?_
    rintro file rfl
    exact List.mem_cons_self

theorem makes_concluding (hfinal : P t.finalPath) (hstaging : P t.stagingPath) :
    t.concluding.Makes (Call.OnFiles P) files := by
  have hclearing : (clearing t.finalPath).Makes (Call.OnFiles P) files :=
    Routine.makes_ask hfinal fun answer => by cases answer <;> trivial
  have hpromoting : t.promoting.Makes (Call.OnFiles P) files := by
    refine hclearing.bind fun answer more => ?_
    cases answer with
    | error e => trivial
    | ok => exact ⟨⟨hstaging, hfinal⟩, fun _ => trivial⟩
  exact hpromoting.bind fun answer more => by cases answer <;> trivial

theorem makes_finishing (hfinal : P t.finalPath) (hstaging : P t.stagingPath) :
    t.finishing.Makes (Call.OnFiles P) files := by
  unfold finishing
  split
  · exact t.makes_concluding hfinal hstaging
  · refine Routine.makes_ask hstaging fun answer => ?_
    cases answer with
    | error e => trivial
    | ok content => exact makes_concluding _ hfinal hstaging

/-- **A chunk needs calls on the two paths of its file.** -/
theorem makes_receiving (hfinal : P t.finalPath) (hstaging : P t.stagingPath) :
    (t.receiving bytes).Makes (Call.OnFiles P) files := by
  unfold receiving
  split
  · trivial
  · refine (t.makes_appending bytes hstaging).bind fun answer more => ?_
    cases answer with
    | error e => trivial
    | ok =>
      dsimp only
      split
      · trivial
      · exact makes_finishing _ hfinal hstaging

end

end Transfer

/-! ### Cancelling and opening -/

namespace Session

/-- Removes the staging files of what is not complete: how many there were. -/
def cancelling : List Transfer → Routine Nat
  | [] => return 0
  | t :: rest =>
    if t.completed then cancelling rest
    else do
      match ← ask (.remove t.stagingPath) with
      | .ok () => return (← cancelling rest) + 1
      | .error _ => cancelling rest

theorem run_cancelling (files : List Transfer) (d : Disk) :
    (cancelling files).run d = removeStaging files d := by
  induction files generalizing d with
  | nil => rfl
  | cons t rest ih =>
    unfold cancelling removeStaging
    split
    · exact ih d
    · simp only [Routine.run_bind, Routine.run_ask, Call.make]
      rcases d.remove t.stagingPath with ⟨_ | ⟨⟨⟩⟩, removed⟩
      · exact ih removed
      · simp only [Routine.run_bind, ih, Routine.run_pure]

theorem makes_cancelling {P : Path → Prop} (files : List Transfer)
    (h : ∀ t ∈ files, P t.stagingPath) {opened : List Location} :
    (cancelling files).Makes (Call.OnFiles P) opened := by
  induction files generalizing opened with
  | nil => trivial
  | cons t rest ih =>
    have hrest : ∀ {opened}, (cancelling rest).Makes (Call.OnFiles P) opened :=
      ih fun u hu => h u (List.mem_cons_of_mem t hu)
    unfold cancelling
    split
    · exact hrest
    · refine Routine.makes_ask (h t List.mem_cons_self) fun answer => ?_
      cases answer with
      | error e => exact hrest
      | ok => exact hrest.bind fun _ _ => trivial

end Session

/-- A path, and the paths of the folders that it stands in. -/
inductive Path.StandsIn : Path → Path → Prop
  | self (p : Path) : StandsIn p p
  | parent {p parent folder : Path} (up : p.parent? = some parent) (h : StandsIn parent folder) :
    StandsIn p folder

namespace Receiver

/-- Makes a folder and those it stands in, as far as they are missing. -/
def makingFolders : (fuel : Nat) → Path → Routine (Except SystemError Unit)
  | 0, _ => return .error .noEntry
  | fuel + 1, p =>
    if p.text = "" then return .ok ()
    else do
      match ← ask (.makeFolder p) with
      | .ok () => return .ok ()
      | .error e =>
        if e = .noEntry then
          match p.parent? with
          | none => return .error e
          | some parent =>
            match ← makingFolders fuel parent with
            | .error e => return .error e
            | .ok () =>
              match ← ask (.makeFolder p) with
              | .ok () => return .ok ()
              | .error e => return if ← ask (.isFolder p) then .ok () else .error e
        else return if ← ask (.isFolder p) then .ok () else .error e

/-- Makes the folder for received files, unless it is there. -/
def preparing (folder : Path) : Routine (Except SystemError Unit) := do
  match ← ask (.probe folder) with
  | true => return .ok ()
  | false => makingFolders (folder.components.length + 1) folder

theorem run_makingFolders (fuel : Nat) (p : Path) (d : Disk) :
    (makingFolders fuel p).run d = Disk.makeFoldersUpTo fuel d p := by
  induction fuel generalizing p d with
  | zero => rfl
  | succ fuel ih =>
    unfold makingFolders Disk.makeFoldersUpTo
    split
    · rfl
    simp only [Routine.run_bind, Routine.run_ask, Call.make]
    rcases d.makeFolder p with ⟨e | ⟨⟨⟩⟩, made⟩
    · dsimp only
      split
      · cases p.parent? with
        | none => rfl
        | some parent =>
          simp only [Routine.run_bind, ih]
          rcases Disk.makeFoldersUpTo fuel made parent with ⟨_ | ⟨⟨⟩⟩, above⟩
          · rfl
          · simp only [Routine.run_bind, Routine.run_ask, Call.make]
            rcases above.makeFolder p with ⟨_ | ⟨⟨⟩⟩, last⟩
            · simp only [Routine.run_bind, Routine.run_ask, Call.make, Routine.run_pure]
              by_cases h : last.isFolder p = true <;> simp [h]
            · rfl
      · simp only [Routine.run_bind, Routine.run_ask, Call.make, Routine.run_pure]
        by_cases h : made.isFolder p = true <;> simp [h]
    · rfl

theorem run_preparing (folder : Path) (d : Disk) :
    (preparing folder).run d = prepareFolder folder d := by
  simp only [preparing, prepareFolder, Routine.run_bind, Routine.run_ask, Call.make]
  rcases d.probe folder with ⟨_ | _, probed⟩
  · exact run_makingFolders _ folder probed
  · rfl

theorem makes_makingFolders {P : Path → Prop} (fuel : Nat) {p : Path}
    (hP : ∀ q, p.StandsIn q → P q) {files : List Location} :
    (makingFolders fuel p).Makes (Call.OnFolders P) files := by
  induction fuel generalizing p files with
  | zero => trivial
  | succ fuel ih =>
    have hp := hP p (.self p)
    unfold makingFolders
    split
    · trivial
    refine Routine.makes_ask hp fun made => ?_
    cases made with
    | ok => trivial
    | error e =>
      dsimp only
      split
      · split
        · trivial
        rename_i parent hparent
        refine (ih fun q hq => hP q (.parent hparent hq)).bind fun above more => ?_
        cases above with
        | error => trivial
        | ok =>
          refine Routine.makes_ask hp fun last => ?_
          cases last with
          | ok => trivial
          | error => exact Routine.makes_ask hp fun _ => trivial
      · exact Routine.makes_ask hp fun _ => trivial

theorem makes_preparing (folder : Path) {files : List Location} :
    (preparing folder).Makes (Call.OnFolders folder.StandsIn) files :=
  Routine.makes_ask (.self folder) fun there => by
    cases there with
    | true => trivial
    | false => exact makes_makingFolders _ fun _ h => h

/-! ### Every operation -/

/-- The receiver on another disk. -/
@[simps]
def on (r : Receiver) (d : Disk) : Receiver := { r with disk := d }

/-- Does what a peer asks by calls: the answer, and the receiver after it but for its disk. -/
def performing (r : Receiver) : Operation → Routine (Served Reply)
  | .pair pin remote => return r.perform (.pair pin remote)
  | .openSession sessionId manifest =>
    if r.peer.isNone then return (.error .notPaired, r)
    else if sessionId = "" then return (.error (.invalid .missingSessionOrFiles), r)
    else do
      match ← preparing r.outputFolder with
      | .error e => return (.error (.disk e), r)
      | .ok () =>
        let admission := Admission.ofManifest r.policy r.outputFolder manifest
        return (.ok (.opened ⟨sessionId, admission.verdicts.reverse, r.sessionId?⟩),
          { r with session := some ⟨sessionId, admission.accepted.reverse⟩ })
  | .writeChunk sessionId fileId bytes =>
    match r.session with
    | none => return (.error (.sessionMismatch none sessionId), r)
    | some session =>
      if sessionId ≠ some session.id then
        return (.error (.sessionMismatch (some session.id) sessionId), r)
      else
        match session.file? fileId with
        | none => return (.error (.fileNotFound fileId), r)
        | some t => do
          let (result, t) ← t.receiving bytes
          return (.ok (.report (t.report session.id result)),
            { r with session := some (session.update t) })
  | .cancelSession sessionId =>
    if r.peer.isNone then return (.error .notPaired, r)
    else
      match r.session with
      | none => return (.error (.sessionMismatch none (some sessionId)), r)
      | some session =>
        if session.id ≠ sessionId then
          return (.error (.sessionMismatch (some session.id) (some sessionId)), r)
        else do
          let removed ← Session.cancelling session.files
          return (.ok (.cancelled ⟨sessionId, removed⟩), { r with session := none })

/-- **An operation is its calls.** On every disk the routine of an operation gives what the
operation gives there. -/
theorem perform_eq (r : Receiver) (o : Operation) (d : Disk) :
    (r.on d).perform o =
      match (r.performing o).run d with
      | ((answer, r), d) => (answer, r.on d) := by
  cases o with
  | pair pin remote =>
    simp only [performing, perform, pair, Routine.run_pure, on_pin]
    split
    · rfl
    split
    · rfl
    · by_cases hpin : pin = r.pin
      · simp [hpin, on]
      · simp [hpin, on]
  | openSession sessionId manifest =>
    simp only [performing, perform, openForPeer, openSession, on_peer, on_outputFolder, on_disk]
    by_cases hpeer : r.peer.isNone
    · simp [Except.map, hpeer]
    by_cases hid : sessionId = ""
    · simp [Except.map, hpeer, hid]
    simp only [if_neg hpeer, if_neg hid, Routine.run_bind, run_preparing]
    rcases prepareFolder r.outputFolder d with ⟨_ | ⟨⟨⟩⟩, prepared⟩ <;> rfl
  | writeChunk sessionId fileId bytes =>
    simp only [performing, perform, writeChunk, on_session, on_disk]
    cases hs : r.session with
    | none => rfl
    | some session =>
      by_cases hid : sessionId = some session.id
      · cases hfile : session.file? fileId with
        | none => simp [Except.map, hid, hfile]
        | some t => simp [Except.map, hid, hfile, Transfer.run_receiving, on]
      · simp [Except.map, hid]
  | cancelSession sessionId =>
    simp only [performing, perform, cancelForPeer, cancelSession, on_peer, on_session, on_disk]
    by_cases hpeer : r.peer.isNone
    · simp [Except.map, hpeer]
    cases hs : r.session with
    | none => simp [Except.map, hpeer]
    | some session =>
      by_cases hid : session.id = sessionId
      · simp [Except.map, hpeer, hid, Session.run_cancelling, on]
      · simp [Except.map, hpeer, hid]

/-- **Which calls an operation makes.** To open a session needs calls on the folder for received
files and those that it stands in; all other calls are about the two paths of a file of the current
session. -/
theorem makes_performing {r : Receiver} {P : Path → Prop}
    (hP : ∀ s, r.session = some s → ∀ t ∈ s.files, P t.finalPath ∧ P t.stagingPath)
    (o : Operation) :
    (r.performing o).Makes (Call.OnFiles P) [] ∨
      (r.performing o).Makes (Call.OnFolders r.outputFolder.StandsIn) [] := by
  cases o with
  | pair => exact Or.inl trivial
  | openSession sessionId manifest =>
    refine Or.inr ?_
    simp only [performing]
    split
    · trivial
    split
    · trivial
    · exact (makes_preparing r.outputFolder).bind fun prepared _ => by cases prepared <;> trivial
  | writeChunk sessionId fileId bytes =>
    refine Or.inl ?_
    simp only [performing]
    split
    · trivial
    rename_i s hs
    split
    · trivial
    split
    · trivial
    rename_i t hfile
    obtain ⟨hfinal, hstaging⟩ := hP s hs t (List.mem_of_find?_eq_some hfile)
    exact (t.makes_receiving bytes hfinal hstaging).bind fun _ _ => trivial
  | cancelSession sessionId =>
    refine Or.inl ?_
    simp only [performing]
    split
    · trivial
    split
    · trivial
    rename_i s hs
    split
    · trivial
    · exact (Session.makes_cancelling s.files fun t ht => (hP s hs t ht).2).bind fun _ _ => trivial

end Receiver
end FileReceiver
