/-
# The staging file holds what is counted

Chunks after the first are put at the end of the staging file without a look
at its length. That the length and the count agree is kept by every event: a
chunk that is refused is cut off again, a chunk of another file is about other
entries, and a session that takes the place of another starts from nothing. So
as long as a file is not complete, its staging file holds the chunks of the
session that have been put there, in the order in which they came, and nothing
else (`staging_matches_count`).

Key definitions: `Transfer.Staged`, `Receiver.arrivals`, `Receiver.Undisturbed`.
Key theorems: `Transfer.append_staged`, `Transfer.receive_staged`,
`Receiver.Staging.meet`, `Receiver.staging_matches_count`.
-/
import FileReceiver.Proofs.Delivery
import FileReceiver.Proofs.Histories
import FileReceiver.Proofs.Locality

namespace FileReceiver

variable {d d' : Disk} {p folder : Path} {loc : Location} {content bytes : ByteArray}
  {t t' : Transfer} {name : String}

/-! ### The content at a path -/

namespace Disk

theorem contentAt?_of_resolve {place : Place} {mode : Nat} (hr : d.resolve .kept p = .ok place)
    (hf : d.get? place.location = some (.file mode content)) : d.contentAt? p = some content := by
  rw [contentAt?, entryAt?_of_resolve hr, hf]

theorem exists_of_contentAt? (h : d.contentAt? p = some content) :
    ∃ place mode, d.resolve .kept p = .ok place ∧
      d.get? place.location = some (.file mode content) := by
  unfold contentAt? entryAt? at h
  cases hr : d.resolve .kept p with
  | error e =>
    rw [hr] at h
    cases h
  | ok place =>
    rw [hr] at h
    dsimp only at h
    split at h
    · rename_i mode there hf
      cases h
      exact ⟨place, mode, rfl, hf⟩
    · cases h

/-- Edits elsewhere leave the content at a path. -/
theorem contentAt?_edits {locs : List Location} (h : d.contentAt? p = some content)
    (ha : d.Aims p loc) (he : d.Edits locs d') (hloc : loc ∉ locs) :
    d'.contentAt? p = some content := by
  obtain ⟨place, mode, hr, hf⟩ := exists_of_contentAt? h
  apply contentAt?_of_resolve (he.resolve.mpr hr)
  rw [ha.location hr] at hf ⊢
  rw [he.get?_eq hloc, hf]

/-- Folders that are made leave the content at a path. -/
theorem contentAt?_grows (h : d.contentAt? p = some content) (hg : d.Grows d') :
    d'.contentAt? p = some content := by
  obtain ⟨place, mode, hr, hf⟩ := exists_of_contentAt? h
  exact contentAt?_of_resolve (resolve_mono hg.keeps hr) (hg.get? hf)

/-- Nobody has touched the folder or its entries. -/
structure Leaves (d : Disk) (folder : Path) (d' : Disk) : Prop where
  folderAt : d'.folderAt folder = d.folderAt folder
  entry : ∀ loc, d.EntryAt folder (fun _ => True) loc → d'.get? loc = d.get? loc

theorem contentAt?_leaves (h : d.contentAt? (folder.join name) = some content)
    (hname : FileName.IsPlain name.toList) (hl : d.Leaves folder d') :
    d'.contentAt? (folder.join name) = some content := by
  obtain ⟨place, mode, hr, hf⟩ := exists_of_contentAt? h
  obtain ⟨at_, hat, rfl⟩ := resolve_join_ok hname (Or.inl rfl) hr
  have hresolve : d'.resolve .kept (folder.join name) = .ok ⟨at_, .name name, false⟩ := by
    rw [resolve_join hname (Or.inl rfl)] at hr ⊢
    rw [hl.folderAt, lastIn_congr]
    exact hr
  have hentry : d.EntryAt folder (fun _ => True) (at_ ++ [name]) :=
    ⟨at_, name, hat, trivial, hname, rfl⟩
  exact contentAt?_of_resolve hresolve ((hl.entry _ hentry).trans hf)

end Disk

/-! ### One transfer -/

namespace Transfer

/-- As many bytes have been counted as a content has, and the staging file holds it, if it is not
empty. -/
structure Staged (t : Transfer) (d : Disk) (content : ByteArray) : Prop where
  received : t.received = content.size
  staged : content = .empty ∨ d.contentAt? t.stagingPath = some content

theorem Staged.congr (h : t.Staged d content)
    (hk : d.contentAt? t.stagingPath = some content → d'.contentAt? t.stagingPath = some content) :
    t.Staged d' content :=
  ⟨h.received, h.staged.imp_right hk⟩

/-- A chunk that is appended goes to where the staging path leads. -/
theorem append_resolves (hlies : t.LiesIn folder name) (h : (t.append bytes d).1 = .ok ()) :
    ∃ place, d.resolve .kept t.stagingPath = .ok place := by
  have hopened : ∃ lastName place, d.resolve lastName t.stagingPath = .ok place := by
    unfold append openStaging at h
    split at h
    · cases h
    rename_i found opened hopen
    split at hopen
    · obtain ⟨-, ⟨e, he⟩ | ⟨place, hr, -⟩⟩ := Disk.openEnd_cases hopen
      · cases he
      · exact ⟨_, place, hr⟩
    · rcases Disk.openFresh_cases hopen with ⟨e, he, -⟩ | ⟨place, hr, -⟩
      · cases he
      · exact ⟨_, place, hr⟩
  obtain ⟨lastName, place, hr⟩ := hopened
  rw [hlies.staging] at hr ⊢
  obtain ⟨at_, -, hkept⟩ := Disk.resolve_join_kept (FileName.plain_staged hlies.plain) hr
  exact ⟨_, hkept⟩

/-- To a full device nothing can be appended that has a byte. -/
theorem append_device (ha : d.Aims t.stagingPath loc) (hdev : d.get? loc = some .fullDevice)
    (hzero : t.received = 0) (h : (t.append bytes d).1 = .ok ()) : bytes = .empty := by
  apply ByteArray.size_eq_zero_iff.mp
  by_cases hsize : bytes.size = 0
  · exact hsize
  unfold append openStaging at h
  rw [if_neg (by omega)] at h
  unfold Disk.openFresh at h
  rcases d.attempt_cases _ with ⟨e, hcall⟩ | hcall
  · rw [hcall] at h
    cases h
  rw [hcall] at h
  cases hr : d.later.resolve .made t.stagingPath with
  | error e =>
    rw [hr] at h
    cases h
  | ok place =>
    have hloc := ha.location (Disk.resolve_later.mp hr)
    rw [hr] at h
    simp only [hloc, Disk.get?_later, hdev] at h
    unfold Disk.write at h
    rw [if_neg (by simpa [ByteArray.isEmpty] using hsize)] at h
    rcases d.later.draw_cases with ⟨fault, hdraw, -⟩ | hdraw
    · rw [hdraw] at h
      cases h
    · simp only [hdraw, Disk.get?_later, hdev] at h
      cases h

/-- **Appending keeps count.** A chunk that is appended stands behind what has been counted; one
that is not leaves what has been counted, if it can be cut off. -/
theorem append_staged {res : Except SystemError Unit} (h : t.Staged d content)
    (hopen : t.completed = false) (hlies : t.LiesIn folder name) (hd : d.Linkless folder)
    (happend : t.append bytes d = (res, d')) :
    (res = .ok () → (t.counting bytes.size).Staged d' (content ++ bytes)) ∧
      ((∃ e, res = .error e) → t.RollsBack bytes d → t.Staged d' content) := by
  obtain ⟨at_, hat⟩ := d.exists_isAt folder
  have ha := (hlies.placedIn hd hat).aimsStaging
  have hcount : (t.counting bytes.size).received = (content ++ bytes).size := by
    rw [ByteArray.size_append, counting, h.received]
  obtain ⟨hedits, -⟩ := append_edits ha bytes
  rw [happend] at hedits
  by_cases hdev : content = .empty ∧
      d.get? (at_ ++ [name ++ FileName.stagingSuffix]) = some .fullDevice
  · -- on a full device nothing is ever counted
    obtain ⟨rfl, hdev⟩ := hdev
    refine ⟨fun hok => ⟨hcount, Or.inl ?_⟩, fun _ _ => ⟨h.received, Or.inl rfl⟩⟩
    have hnone : bytes = .empty := append_device ha hdev h.received (by rw [happend, hok])
    rw [hnone, ByteArray.append_empty]
  -- appending does not look at what is said about the hash
  have hcounts : Counts { t with hashVerified := none } d (at_ ++ [name ++ FileName.stagingSuffix])
      content := by
    refine ⟨hopen, fun _ => rfl, h.received, ?_⟩
    rcases h.staged with rfl | hthere
    · exact Or.inl ⟨rfl, fun hfull => hdev ⟨rfl, hfull⟩⟩
    · obtain ⟨place, mode, hr, hf⟩ := Disk.exists_of_contentAt? hthere
      rw [ha.location hr] at hf
      exact Or.inr ⟨mode, hf⟩
  refine ⟨fun hok => ⟨hcount, Or.inr ?_⟩, fun herror hback => ⟨h.received, ?_⟩⟩
  · obtain ⟨place, hr⟩ := append_resolves (d := d) hlies (by rw [happend, hok])
    rcases append_counts hcounts ha happend with ⟨-, mode, hf⟩ | ⟨⟨e, he⟩, -⟩
    · apply Disk.contentAt?_of_resolve (hedits.resolve.mpr hr)
      rw [ha.location hr, hf]
    · rw [hok] at he
      cases he
  · rcases h.staged with hempty | hthere
    · exact Or.inl hempty
    obtain ⟨place, mode, hr, -⟩ := Disk.exists_of_contentAt? hthere
    rcases append_counts hcounts ha happend with ⟨hok, -⟩ | ⟨-, hcut⟩
    · obtain ⟨e, he⟩ := herror
      rw [hok] at he
      cases he
    · rcases (hcut hback).staged with ⟨hempty, -⟩ | ⟨mode, hf⟩
      · exact Or.inl hempty
      · right
        apply Disk.contentAt?_of_resolve (hedits.resolve.mpr hr)
        rw [ha.location hr, hf]

/-- The bytes by which a chunk makes a file longer: all of them, if it is appended. -/
def gained (t : Transfer) (bytes : ByteArray) (d : Disk) : List ByteArray :=
  if !t.completed && (t.append bytes d).1.isOk then [bytes] else []

/-- **A chunk keeps count**, whatever becomes of it, unless the file is complete after it. -/
theorem receive_staged {result : ChunkResult} {chunks : List ByteArray}
    (h : t.Staged d (joined chunks)) (hlies : t.LiesIn folder name) (hd : d.Linkless folder)
    (hback : t.completed = false → t.RollsBack bytes d)
    (hreceive : t.receive bytes d = (result, t', d')) (hopen : t'.completed = false) :
    t'.Staged d' (joined (chunks ++ t.gained bytes d)) := by
  obtain ⟨at_, hat⟩ := d.exists_isAt folder
  have hplaced := hlies.placedIn hd hat
  rcases receive_cases hreceive with ⟨hdone, -, rfl, -⟩ | ⟨hbegun, hcases⟩
  · rw [hdone] at hopen
    cases hopen
  rcases hcases with ⟨e, happend, -, rfl⟩ | ⟨appended, happend, hcases⟩
  · have hgained : t'.gained bytes d = [] := by simp [gained, happend, Except.isOk, Except.toBool]
    rw [hgained, List.append_nil]
    exact (append_staged h hbegun hlies hd happend).2 ⟨e, rfl⟩ (hback hbegun)
  have hgained : t.gained bytes d = [bytes] := by
    simp [gained, hbegun, happend, Except.isOk, Except.toBool]
  rw [hgained, joined_concat]
  have hstaged := (append_staged h hbegun hlies hd happend).1 rfl
  rcases hcases with ⟨-, -, rfl, rfl⟩ | ⟨-, hfinish⟩
  · exact hstaged
  obtain ⟨hedits, -⟩ := append_edits hplaced.aimsStaging bytes
  rw [happend] at hedits
  have hplaced' := (hplaced.edits hedits).counting bytes.size
  obtain ⟨v, ⟨-, rfl, hedits', -⟩ | ⟨-, rfl, -⟩⟩ := finish_cases hplaced' hfinish
  · refine ⟨hstaged.received, hstaged.staged.imp_right fun hthere => ?_⟩
    exact Disk.contentAt?_edits hthere hplaced'.aimsStaging hedits' (by simpa using hplaced.ne)
  · cases hopen

end Transfer

/-! ### Chunks that arrive -/

namespace Receiver

/-- The bytes that an operation appends to the staging file of a file of the current session. -/
def gained (r : Receiver) (fileId : String) : Operation → List ByteArray
  | .writeChunk sessionId id bytes =>
    if id = fileId ∧ sessionId = r.sessionId? then
      match r.file? fileId with
      | some t => t.gained bytes r.disk
      | none => []
    else []
  | _ => []

/-- The chunks of the current session that have been appended for a file, after an event. -/
def arrived (r : Receiver) (fileId : String) (chunks : List ByteArray) : Event → List ByteArray
  | .asked (.openSession id manifest) => if (r.openForPeer id manifest).1.isOk then [] else chunks
  | .asked o => chunks ++ r.gained fileId o
  | .changed _ => chunks

/-- The chunks of the current session that have been appended for a file after a history, if those
given were before it. -/
def arrivals (fileId : String) : Receiver → List ByteArray → List Event → List ByteArray
  | _, chunks, [] => chunks
  | r, chunks, e :: rest => arrivals fileId (r.meet e) (r.arrived fileId chunks e) rest

/-- What an operation leaves behind by a failing write can be cut off. -/
def CutsOff (r : Receiver) : Operation → Prop
  | .writeChunk sessionId fileId bytes => ∀ t ∈ r.file? fileId, sessionId = r.sessionId? →
      t.completed = false → t.RollsBack bytes r.disk
  | _ => True

/-- An event at which the folder for received files is left to the receiver: operations find no link
in it and can cut off what a failing write leaves behind, and nobody else touches it. -/
def Bears (r : Receiver) : Event → Prop
  | .asked o => r.disk.Linkless r.outputFolder ∧ r.CutsOff o
  | .changed d => r.disk.Leaves r.outputFolder d

/-- A history throughout which the folder is left to the receiver. -/
def Undisturbed (r : Receiver) : List Event → Prop
  | [] => True
  | e :: rest => r.Bears e ∧ (r.meet e).Undisturbed rest

/-- The staging file of a file of the current session holds some chunks, unless the file is
complete. -/
def Staging (r : Receiver) (fileId : String) (chunks : List ByteArray) : Prop :=
  ∀ t, r.file? fileId = some t → t.completed = false → t.Staged r.disk (joined chunks)

variable {r : Receiver} {fileId : String} {chunks : List ByteArray}

/-- An event that leaves the records and the content of staging files keeps what they hold. -/
theorem Staging.congr {r' : Receiver} (h : r.Staging fileId chunks)
    (hfile : ∀ t, r'.file? fileId = some t → r.file? fileId = some t)
    (hdisk : ∀ t content, r.file? fileId = some t → r.disk.contentAt? t.stagingPath = some content →
      r'.disk.contentAt? t.stagingPath = some content) :
    r'.Staging fileId chunks := fun t ht hopen =>
  (h t (hfile t ht) hopen).congr (hdisk t _ (hfile t ht))

/-- A session is opened, or it is not and the disk has no more than grown. -/
theorem openForPeer_cases (r : Receiver) (id : String) (manifest : Manifest) :
    (∃ opened d, r.openForPeer id manifest = (.ok opened,
        { r with session := some ⟨id, r.admitted manifest⟩, disk := d })) ∨
      ∃ e d, r.openForPeer id manifest = (.error e, r.on d) ∧ r.disk.Grows d := by
  unfold openForPeer openSession
  split
  · exact Or.inr ⟨_, r.disk, rfl, .refl _⟩
  split
  · exact Or.inr ⟨_, r.disk, rfl, .refl _⟩
  have hgrows := prepareFolder_grows r.outputFolder r.disk
  split
  · rename_i e d heq
    rw [heq] at hgrows
    exact Or.inr ⟨_, d, rfl, hgrows⟩
  · exact Or.inl ⟨_, _, rfl⟩

/-- A session that is opened has nothing in its staging files. -/
theorem staging_opened (r : Receiver) (id : String) (manifest : Manifest) (d : Disk)
    (fileId : String) :
    Staging { r with session := some ⟨id, r.admitted manifest⟩, disk := d } fileId [] := by
  intro t ht _
  have hmem : t ∈ r.admitted manifest :=
    Session.mem_of_file? (s := ⟨id, r.admitted manifest⟩) ht
  have hsep := Admission.separate_ofManifest r.policy r.outputFolder manifest
  exact ⟨hsep.unbegun t (List.mem_reverse.mp hmem), Or.inl rfl⟩

variable {s : Session} {id : String} {u u' : Transfer} {bytes : ByteArray} {result : ChunkResult}
  {d' : Disk}

/-- A chunk of a file goes behind what its staging file holds, or leaves it as it is. -/
theorem Staging.own (h : r.Staging id chunks) (hr : r.Tidy)
    (hlinks : r.disk.Linkless r.outputFolder) (hs : r.session = some s)
    (hfile : s.file? id = some u) (hback : u.completed = false → u.RollsBack bytes r.disk)
    (hreceive : u.receive bytes r.disk = (result, u', d')) :
    Staging { r with session := some (s.update u'), disk := d' } id
      (chunks ++ u.gained bytes r.disk) := by
  intro t ht hopen
  obtain ⟨hid, -⟩ := Transfer.receive_paths hreceive
  have hrecord : (s.update u').file? u.fileId = some u' :=
    Session.file?_update_self hid (by rw [Session.fileId_of_file? hfile, hfile])
  rw [Session.fileId_of_file? hfile] at hrecord
  obtain rfl : u' = t := Option.some.inj (hrecord.symm.trans ht)
  have hbegun : u.completed = false := by
    apply eq_false_of_ne_true
    intro hdone
    rw [Transfer.receive_completed hdone] at hreceive
    cases hreceive
    rw [hdone] at hopen
    cases hopen
  obtain ⟨name, hname⟩ := (hr s hs).lies u (Session.mem_of_file? hfile)
  have hstaged := h u (by rw [file?_eq hs, hfile]) hbegun
  exact Transfer.receive_staged hstaged hname hlinks hback hreceive hopen

/-- A chunk of a file leaves what the staging files of the others hold. -/
theorem Staging.other (h : r.Staging fileId chunks) (hr : r.Tidy)
    (hlinks : r.disk.Linkless r.outputFolder) (hs : r.session = some s)
    (hfile : s.file? id = some u) (hne : fileId ≠ id)
    (hreceive : u.receive bytes r.disk = (result, u', d')) :
    Staging { r with session := some (s.update u'), disk := d' } fileId chunks := by
  obtain ⟨hid, -⟩ := Transfer.receive_paths hreceive
  have huid := Session.fileId_of_file? hfile
  have hmem := Session.mem_of_file? hfile
  obtain ⟨name, hname⟩ := (hr s hs).lies u hmem
  obtain ⟨at_, hat⟩ := r.disk.exists_isAt r.outputFolder
  have hedits := Transfer.receive_edits (hname.placedIn hlinks hat) bytes
  rw [hreceive] at hedits
  apply h.congr
  · intro t ht
    change (s.update u').file? fileId = some t at ht
    rw [Session.file?_update_ne s (by rw [hid, huid]; exact hne)] at ht
    rw [file?_eq hs, ht]
  · intro t content ht hthere
    rw [file?_eq hs] at ht
    have hmemt := Session.mem_of_file? ht
    obtain ⟨other, hother⟩ := (hr s hs).lies t hmemt
    have hapart : t.Apart u := ((hr s hs).apart t hmemt u hmem).resolve_left fun he =>
      hne (by rw [← huid, ← Session.fileId_of_file? ht, he])
    have hnames : ¬ FileName.stored name (other ++ FileName.stagingSuffix) :=
      hapart.stored hother hname _ (Or.inr rfl)
    apply Disk.contentAt?_edits hthere (hother.placedIn hlinks hat).aimsStaging hedits
    intro hloc
    apply hnames
    simpa [FileName.stored, or_comm] using hloc

/-- **A chunk keeps what staging files hold.** -/
theorem Staging.written (h : r.Staging fileId chunks) (hr : r.Tidy)
    (hlinks : r.disk.Linkless r.outputFolder) {sessionId : Option String}
    (hcuts : r.CutsOff (.writeChunk sessionId id bytes)) :
    (r.writeChunk sessionId id bytes).2.Staging fileId
      (chunks ++ r.gained fileId (.writeChunk sessionId id bytes)) := by
  unfold writeChunk gained
  cases hs : r.session with
  | none =>
    have hfile : r.file? fileId = none := by rw [file?, hs, Option.bind_none]
    simpa [hfile] using h
  | some s =>
    have hsession : r.sessionId? = some s.id := by rw [sessionId?, hs, Option.map_some]
    by_cases hid : sessionId = some s.id
    · simp only [hsession, file?_eq hs, hid, ne_eq, not_true_eq_false, if_false, and_true]
      cases hfile : s.file? id with
      | none =>
        by_cases hsame : id = fileId
        · simpa [← hsame, hfile] using h
        · simpa [hsame] using h
      | some u =>
        by_cases hsame : id = fileId
        · subst hsame
          rw [if_pos rfl, hfile]
          have hback := hcuts u (by rw [file?_eq hs, hfile]; rfl) (hid.trans hsession.symm)
          exact h.own hr hlinks hs hfile hback rfl
        · rw [if_neg hsame, List.append_nil]
          exact h.other hr hlinks hs hfile (Ne.symm hsame) rfl
    · simpa [hid, hsession] using h

/-- **Every event keeps what staging files hold.** -/
theorem Staging.meet (h : r.Staging fileId chunks) (hr : r.Tidy) {e : Event} (he : r.Bears e) :
    (r.meet e).Staging fileId (r.arrived fileId chunks e) := by
  cases e with
  | asked o =>
    obtain ⟨hlinks, hcuts⟩ := he
    cases o with
    | pair pin remote =>
      have hmove := perform_moves r (.pair pin remote)
      change (r.perform (.pair pin remote)).2.Staging fileId (chunks ++ [])
      rw [List.append_nil]
      generalize (r.perform (.pair pin remote)).2 = r' at hmove ⊢
      cases hmove with
      | refused | paired => exact h
    | openSession id manifest =>
      change (r.openForPeer id manifest).2.Staging fileId
        (if (r.openForPeer id manifest).1.isOk then [] else chunks)
      rcases r.openForPeer_cases id manifest with ⟨opened, d, heq⟩ | ⟨error, d, heq, hgrows⟩
      · rw [heq]
        exact r.staging_opened id manifest d fileId
      · rw [heq]
        exact h.congr (fun _ ht => ht) fun _ _ _ hthere => Disk.contentAt?_grows hthere hgrows
    | writeChunk sessionId id bytes => exact h.written hr hlinks hcuts
    | cancelSession id =>
      have hmove := perform_moves r (.cancelSession id)
      change (r.perform (.cancelSession id)).2.Staging fileId (chunks ++ [])
      rw [List.append_nil]
      generalize (r.perform (.cancelSession id)).2 = r' at hmove ⊢
      cases hmove with
      | refused => exact h
      | cancelled => nofun
  | changed d =>
    refine h.congr (fun _ ht => ht) fun t content ht hthere => ?_
    obtain ⟨s, hs, hfile⟩ := Option.bind_eq_some_iff.mp ht
    obtain ⟨name, hname⟩ := (hr s hs).lies t (Session.mem_of_file? hfile)
    rw [hname.staging] at hthere ⊢
    exact Disk.contentAt?_leaves hthere (FileName.plain_staged hname.plain) he

theorem Staging.after (h : r.Staging fileId chunks) (hr : r.Tidy) {events : List Event}
    (hu : r.Undisturbed events) :
    (r.after events).Staging fileId (arrivals fileId r chunks events) := by
  induction events generalizing r chunks with
  | nil => exact h
  | cons e rest ih =>
    obtain ⟨he, hrest⟩ := hu
    exact ih (h.meet hr he) (tidy_after hr [e]) hrest

/-- **The staging file holds what is counted.** Throughout a history in which the folder for
received files is left to the receiver, whatever calls fail: if a file of the current session is not
complete and bytes of it have been counted, its staging file is there, and holds the chunks of this
session that have been appended, in their order; and so many bytes have been counted. -/
theorem staging_matches_count {start : Receiver} (hidle : start.session = none)
    {events : List Event} (hundisturbed : start.Undisturbed events) {fileId : String} {t : Transfer}
    (hfile : (start.after events).file? fileId = some t) (hopen : t.completed = false)
    (hpos : 0 < t.received) :
    (start.after events).disk.contentAt? t.stagingPath =
        some (joined (arrivals fileId start [] events)) ∧
      (joined (arrivals fileId start [] events)).size = t.received := by
  have hnone : start.Staging fileId [] := fun t ht => by
    rw [file?, hidle, Option.bind_none] at ht
    cases ht
  have hstaged := hnone.after (tidy_of_idle hidle) hundisturbed t hfile hopen
  refine ⟨hstaged.staged.resolve_left fun hempty => ?_, hstaged.received.symm⟩
  rw [hstaged.received, hempty] at hpos
  exact absurd hpos (Nat.lt_irrefl 0)

/-! ### Runs on a disk without links -/

theorem rollsBack_iff {t : Transfer} {d : Disk} : t.RollsBack bytes d ↔
    (match t.openStaging d with
      | (.error _, _) => true
      | (.ok loc, opened) =>
        match opened.write loc bytes with
        | (.ok (), _) => true
        | (.error _, failed) => (failed.setLength loc t.received).1.isOk) = true := by
  unfold Transfer.RollsBack
  rcases t.openStaging d with ⟨_ | loc, opened⟩
  · simp
  dsimp only
  rcases hw : opened.write loc bytes with ⟨e | ⟨⟨⟩⟩, written⟩
  · constructor
    · intro h
      dsimp only
      rw [h loc opened e written rfl hw]
      rfl
    · intro h loc' opened' e' failed hopen hwrite
      cases hopen
      rw [hw] at hwrite
      cases hwrite
      dsimp only at h
      cases hset : (written.setLength loc t.received).1 with
      | error e =>
        rw [hset] at h
        cases h
      | ok => rfl
  · refine iff_of_true ?_ rfl
    intro loc' opened' e failed hopen hwrite
    cases hopen
    rw [hw] at hwrite
    cases hwrite

instance (t : Transfer) (d : Disk) : Decidable (t.RollsBack bytes d) :=
  decidable_of_iff _ rollsBack_iff.symm

instance (r : Receiver) : (o : Operation) → Decidable (r.CutsOff o)
  | .writeChunk sessionId fileId bytes =>
    inferInstanceAs (Decidable (∀ t ∈ r.file? fileId, sessionId = r.sessionId? →
      t.completed = false → t.RollsBack bytes r.disk))
  | .pair _ _ | .openSession _ _ | .cancelSession _ => isTrue trivial

/-- Along a run, what failing writes leave behind can be cut off. -/
def CutsOffAlong (r : Receiver) : List Operation → Prop
  | [] => True
  | o :: rest => r.CutsOff o ∧ (r.perform o).2.CutsOffAlong rest

instance decidableCutsOffAlong : (r : Receiver) → (operations : List Operation) →
    Decidable (r.CutsOffAlong operations)
  | _, [] => isTrue trivial
  | r, o :: rest =>
    have := decidableCutsOffAlong (r.perform o).2 rest
    inferInstanceAs (Decidable (r.CutsOff o ∧ (r.perform o).2.CutsOffAlong rest))

/-- A run that starts without a link on the disk leaves the folder to the receiver throughout. -/
theorem undisturbed_run (hr : r.Tidy) (hd : r.disk.LinkFree) {operations : List Operation}
    (h : r.CutsOffAlong operations) : r.Undisturbed (operations.map .asked) := by
  induction operations generalizing r with
  | nil => trivial
  | cons o rest ih =>
    obtain ⟨hcuts, hrest⟩ := h
    have hnext := (perform_moves r o).orderly (hr.orderly hd)
    exact ⟨⟨hd.linkless _, hcuts⟩, ih hnext.tidy hnext.linkFree hrest⟩

/-- A receiver on an empty disk, two calls on which are going to fail. -/
def tornExample : Receiver :=
  unpairedExample.on
    { entries := ∅
      faults := [none, none, none, none, none, none, some ⟨.noSpace, 1⟩, none, none, none,
        some ⟨.noSpace, 0⟩] }

/-- A chunk of a session that is replaced; then a torn write, a failed opening, and both chunks
again. -/
def tornRun : List Operation :=
  [.pair "123456" { id := "d", nickname := "n" },
    .openSession "s1" [("f", { name := some "x", size := 5 })],
    .writeChunk (some "s1") "f" ⟨#[9]⟩,
    .openSession "s2" [("f", { name := some "x", size := 5 })],
    .writeChunk (some "s2") "f" ⟨#[1, 2]⟩, .writeChunk (some "s2") "f" ⟨#[1, 2]⟩,
    .writeChunk (some "s2") "f" ⟨#[3]⟩, .writeChunk (some "s2") "f" ⟨#[3]⟩]

theorem staged_despite_torn_write :
    arrivals "f" tornExample [] (tornRun.map .asked) = [⟨#[1, 2]⟩, ⟨#[3]⟩] ∧
      (tornExample.after (tornRun.map .asked)).disk.contentAt? ⟨"out/x.part"⟩ =
        some ⟨#[1, 2, 3]⟩ := by
  have hlinks : tornExample.disk.LinkFree := Disk.linkFree_empty _ _
  have hcuts : tornExample.CutsOffAlong tornRun := by decide +kernel
  have hidle : tornExample.session = none := rfl
  have hundisturbed := undisturbed_run (tidy_of_idle hidle) hlinks hcuts
  have hfile : (tornExample.after (tornRun.map .asked)).file? "f" =
      some { Transfer.ofOffer "f" { name := some "x", size := 5 } ⟨"out"⟩ [] with
        received := 3 } := by
    decide +kernel
  have harrived : arrivals "f" tornExample [] (tornRun.map .asked) = [⟨#[1, 2]⟩, ⟨#[3]⟩] := by
    decide +kernel
  obtain ⟨hcontent, -⟩ := staging_matches_count hidle hundisturbed hfile rfl (by decide)
  have hpath : (Transfer.ofOffer "f" { name := some "x", size := 5 } ⟨"out"⟩ []).stagingPath =
      ⟨"out/x.part"⟩ := by decide +kernel
  have hjoined : joined [⟨#[1, 2]⟩, ⟨#[3]⟩] = ⟨#[1, 2, 3]⟩ := by decide
  rw [harrived, hjoined] at hcontent
  exact ⟨harrived, hpath ▸ hcontent⟩

end Receiver
end FileReceiver
