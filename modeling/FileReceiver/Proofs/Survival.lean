/-
# What is complete stays

A file that is complete stands in the folder for received files, and the
sessions to come know nothing of it: what keeps the files of a session apart
are the claims of that session alone. It stays all the same, whatever is
asked, until the path is cleared for a file with the same final path. The one
exception is a file of a later session whose staging path is the final path of
the complete one: its first chunk empties the complete file, and cancelling
its session takes it away (`Operation.Discards`).

Key definitions: `Disk.Stands`, `Operation.Discards`, `Operation.Finalizes`,
`Receiver.Spares`, `Receiver.Kept`.
Key theorems: `Transfer.receive_spares`, `Receiver.kept_run`,
`Receiver.Kept.discarded`, `Receiver.completed_survives`.
-/
import FileReceiver.Proofs.Pairing
import FileReceiver.Proofs.Sessions

namespace FileReceiver

open Disk (Ordinary)

variable {d d' : Disk} {folder : Path} {loc : Location} {name own : String} {e : Entry}
  {t t' : Transfer} {bytes : ByteArray}

/-- An entry of a folder, which is no folder and no link, stands at a path that every call finds. -/
structure Disk.Stands (d : Disk) (folder : Path) (name : String) (loc : Location) (e : Entry) :
    Prop where
  folderAt : d.folderAt folder = .ok loc
  leads : d.Leads (folder.join name) loc name
  ordinary : d.Ordinary (loc ++ [name])
  entry : d.get? (loc ++ [name]) = some e

theorem Disk.Stands.keeps (h : d.Stands folder name loc e) (hk : d.Keeps d')
    (he : d'.get? (loc ++ [name]) = d.get? (loc ++ [name])) : d'.Stands folder name loc e :=
  ⟨Disk.folderAt_mono hk h.folderAt, h.leads.keeps hk, h.ordinary.congr he, he.trans h.entry⟩

theorem Disk.Stands.isAt (h : d.Stands folder name loc e) : d.IsAt folder loc :=
  Disk.isAt_of_folderAt h.folderAt

theorem Disk.Stands.entryAt? (h : d.Stands folder name loc e) :
    d.entryAt? (folder.join name) = some e :=
  h.leads.entryAt?.trans h.entry

/-! ### One chunk -/

namespace Transfer

/-- The chunk is the last one of a file, and the final path is cleared for the file. -/
def Clears (t : Transfer) (bytes : ByteArray) (d : Disk) : Prop :=
  t.completed = false ∧ t.declaredSize.toNat ≤ t.received + bytes.size ∧
    ∃ appended t' compared, t.append bytes d = (.ok (), appended) ∧
      (t.counting bytes.size).verify appended = (.ok t', compared) ∧
      (clear t'.finalPath compared).1 = .ok ()

/-- A file that cannot be completed leaves the final path alone if that has not been cleared. -/
theorem finish_uncleared {staging final : Location} {result : ChunkResult}
    (hp : t.Placed d staging final) (h : t.finish d = (result, t', d'))
    (hclear : ∀ t₁ compared, t.verify d = (.ok t₁, compared) →
      (clear t₁.finalPath compared).1 ≠ .ok ()) : d.Edits [] d' := by
  unfold finish at h
  rcases hverify : t.verify d with ⟨res, compared⟩
  rw [hverify] at h
  obtain ⟨hedit, ⟨e', rfl⟩ | ⟨v, rfl, -⟩⟩ := verify_cases hp.aimsStaging hverify
  · cases h
    exact hedit
  have hkept := hclear _ _ hverify
  rcases hc : clear t.finalPath compared with ⟨res, cleared⟩
  rw [hc] at hkept
  rcases clear_cases (hp.edits hedit).aimsFinal hc with ⟨⟨e', rfl⟩, hedit'⟩ | ⟨rfl, -⟩
  · simp only [promote, hc] at h
    cases h
    exact hedit.trans hedit'
  · exact absurd rfl hkept

/-- **A chunk spares what stands elsewhere.** What stands at a path stays when a chunk of a file
comes that is staged elsewhere, unless the path is cleared for the file. -/
theorem receive_spares (hlies : t.LiesIn folder own) (hd : d.LinkFree) (hloc : d.IsAt folder loc)
    (hstaging : own ++ FileName.stagingSuffix ≠ name) (hfinal : own = name → ¬t.Clears bytes d) :
    (t.receive bytes d).2.2.get? (loc ++ [name]) = d.get? (loc ++ [name]) := by
  have hp := hlies.placed hd hloc
  have hne : loc ++ [name] ≠ loc ++ [own ++ FileName.stagingSuffix] := by
    simpa using fun he : name = _ => hstaging he.symm
  by_cases hown : own ≠ name
  · exact (receive_edits hp bytes).get?_eq (by
      simpa using ⟨fun he => hstaging he.symm, fun he => hown he.symm⟩)
  obtain rfl := Decidable.not_not.mp hown
  obtain ⟨happend, -⟩ := append_edits hp.aimsStaging bytes
  rcases h : t.receive bytes d with ⟨result, t', d'⟩
  rcases receive_cases h with ⟨-, -, -, rfl⟩ | ⟨hopen, ⟨e', ha, -⟩ | ⟨appended, ha, h⟩⟩
  · rfl
  · rw [ha] at happend
    exact happend.get?_eq (by simpa using hne)
  rw [ha] at happend
  have hsame : appended.get? (loc ++ [own]) = d.get? (loc ++ [own]) :=
    happend.get?_eq (by simpa using hne)
  rcases h with ⟨-, -, -, rfl⟩ | ⟨hfull, h⟩
  · exact hsame
  have hedit := finish_uncleared ((hp.edits happend).counting bytes.size) h
    fun t₁ compared hverify hclear =>
      hfinal rfl ⟨hopen, hfull, appended, t₁, compared, ha, hverify, hclear⟩
  exact (hedit.get?_of_nil _).trans hsame

/-- A chunk that completes a file leaves it at the final path, where every call finds it. -/
theorem receive_stands (hlies : t.LiesIn folder own) (hd : d.LinkFree) (hloc : d.IsAt folder loc)
    (hopen : t.completed = false) (hdone : (t.receive bytes d).1.status = .completed) :
    ∃ e, (t.receive bytes d).2.2.Stands folder own loc e := by
  have hp := hlies.placed hd hloc
  have hd' := hd.keeps (receive_edits hp bytes).keeps
  obtain ⟨happend, hord⟩ := append_edits hp.aimsStaging bytes
  rcases h : t.receive bytes d with ⟨result, t', d'⟩
  rw [h] at hdone hd'
  rcases receive_cases h with ⟨hold, -⟩ | ⟨-, ⟨e, -, rfl, -⟩ | ⟨appended, ha, h⟩⟩
  · rw [hopen] at hold
    cases hold
  · cases hdone
  rcases h with ⟨-, rfl, -⟩ | ⟨-, h⟩
  · cases hdone
  rw [ha] at happend hord
  have hp' := (hp.edits happend).counting bytes.size
  obtain ⟨v, ⟨⟨e, rfl⟩, -⟩ | ⟨-, -, -, -, hmoved, hsome, hreach, -⟩⟩ := finish_cases hp' h
  · cases hdone
  obtain ⟨e, he⟩ := Option.ne_none_iff_exists'.mp hsome
  change d'.Reaches t.finalPath _ at hreach
  rw [hlies.final] at hreach
  obtain ⟨found, hfound, hfolder, hleads⟩ := hreach.join hlies.plain (hd' _)
  obtain rfl : loc = found := by simpa using hfound
  refine ⟨e, hfolder, hleads, ?_, hmoved.trans he⟩
  have hord := hord rfl
  unfold Ordinary at hord ⊢
  rwa [hmoved]

/-- The first chunk of a file that is staged where something stands does away with it. With nothing
left to fail, the bytes of the chunk stand in its place, or nothing does. -/
theorem receive_replaces (hlies : t.LiesIn folder own) (hd : d.LinkFree)
    (hs : d.Stands folder (own ++ FileName.stagingSuffix) loc e) (hq : d.faults = [])
    (hdev : e ≠ .fullDevice) (hopen : t.completed = false) (hzero : t.received = 0)
    (bytes : ByteArray) :
    (t.receive bytes d).2.2.get? (loc ++ [own ++ FileName.stagingSuffix]) = none ∨
      ∃ mode, (t.receive bytes d).2.2.get? (loc ++ [own ++ FileName.stagingSuffix]) =
        some (.file mode bytes) := by
  have hp := hlies.placed hd hs.isAt
  have hleads := hs.leads
  rw [← hlies.staging] at hleads
  -- Appending does not look at what is said about the hash.
  have hc : Counts { t with hashVerified := none } d (loc ++ [own ++ FileName.stagingSuffix])
      .empty :=
    ⟨hopen, fun _ => rfl, hzero, Or.inl ⟨rfl, by rw [hs.entry]; simpa using hdev⟩⟩
  have hok : (t.append bytes d).1 = .ok () :=
    append_ok hq hc hp.aimsStaging hleads hs.ordinary bytes
  obtain ⟨happend, -⟩ := append_edits hp.aimsStaging bytes
  rcases h : t.receive bytes d with ⟨result, t', d'⟩
  rcases receive_cases h with ⟨hdone, -⟩ | ⟨-, ⟨e', ha, -⟩ | ⟨appended, ha, h⟩⟩
  · rw [hopen] at hdone
    cases hdone
  · rw [ha] at hok
    cases hok
  rw [ha] at happend
  obtain ⟨mode, hfile⟩ : ∃ mode, appended.get? (loc ++ [own ++ FileName.stagingSuffix]) =
      some (.file mode bytes) := by
    rcases append_counts hc hp.aimsStaging ha with ⟨-, mode, hfile⟩ | ⟨⟨e', he⟩, -⟩
    · exact ⟨mode, by rw [hfile, ByteArray.empty_append]⟩
    · cases he
  rcases h with ⟨-, -, -, rfl⟩ | ⟨-, h⟩
  · exact Or.inr ⟨mode, hfile⟩
  have hp' := (hp.edits happend).counting bytes.size
  obtain ⟨v, ⟨-, -, hedit, -⟩ | ⟨-, -, -, hgone, -⟩⟩ := finish_cases hp' h
  · exact Or.inr ⟨mode, by rw [hedit.get?_eq (by simpa using hp.ne), hfile]⟩
  · exact Or.inl hgone

end Transfer

/-! ### Cancelling -/

namespace Session

theorem removeStaging_none {files : List Transfer} (hd : d.LinkFree) (hloc : d.IsAt folder loc)
    (hlies : ∀ t ∈ files, ∃ name, t.LiesIn folder name) {place : Location}
    (hnone : d.get? place = none) : (removeStaging files d).2.get? place = none := by
  induction files generalizing d with
  | nil => exact hnone
  | cons t rest ih =>
    have hrest : ∀ t ∈ rest, ∃ name, t.LiesIn folder name :=
      fun u hu => hlies u (List.mem_cons_of_mem t hu)
    rw [removeStaging_cons]
    split
    · exact ih hd hloc hrest hnone
    · obtain ⟨own, hown⟩ := hlies t List.mem_cons_self
      have haims := (hown.placed hd hloc).aimsStaging
      have hedit := d.remove_edits haims
      exact ih (hd.keeps hedit.keeps) (hloc.edits hedit) hrest (Disk.remove_none haims hnone)

/-- With nothing left to fail, cancelling takes the staging file away of every file that is not
complete. -/
theorem removeStaging_gone {files : List Transfer} (hd : d.LinkFree) (hloc : d.IsAt folder loc)
    (hlies : ∀ t ∈ files, ∃ name, t.LiesIn folder name) (hq : d.faults = []) (ht : t ∈ files)
    (hopen : t.completed = false) (hown : t.LiesIn folder own)
    (hleads : d.Leads t.stagingPath loc (own ++ FileName.stagingSuffix))
    (hord : d.Ordinary (loc ++ [own ++ FileName.stagingSuffix])) :
    (removeStaging files d).2.get? (loc ++ [own ++ FileName.stagingSuffix]) = none := by
  induction files generalizing d with
  | nil => cases ht
  | cons u rest ih =>
    have hrest : ∀ t ∈ rest, ∃ name, t.LiesIn folder name :=
      fun u' hu => hlies u' (List.mem_cons_of_mem u hu)
    rw [removeStaging_cons]
    rcases List.mem_cons.mp ht with rfl | ht
    · rw [if_neg (by simp [hopen])]
      have haims := (hown.placed hd hloc).aimsStaging
      have hedit := d.remove_edits haims
      refine removeStaging_none (hd.keeps hedit.keeps) (hloc.edits hedit) hrest ?_
      have hremove := Disk.remove_ok hq hleads hord
      rcases h : d.remove t.stagingPath with ⟨res, removed⟩
      rw [h] at hremove
      rcases Disk.remove_cases haims h with ⟨⟨e', rfl⟩, hedit⟩ | ⟨-, -, hgone, -⟩
      · split at hremove
        · rw [hedit.get?_of_nil]
          assumption
        · cases hremove
      · exact hgone
    · split
      · exact ih hd hloc hrest hq ht hleads hord
      · obtain ⟨other, hother⟩ := hlies u List.mem_cons_self
        have hedit := d.remove_edits (hother.placed hd hloc).aimsStaging
        exact ih (hd.keeps hedit.keeps) (hloc.edits hedit) hrest (hedit.quiet hq) ht
          (hleads.edits hedit) (hord.edits hedit)

end Session

/-! ### One operation -/

/-- The operation is the first chunk of a file, or cancels its session. -/
def Operation.Touches (s : Session) (t : Transfer) : Operation → Prop
  | .writeChunk id fileId _ => id = some s.id ∧ s.file? fileId = some t ∧ t.received = 0
  | .cancelSession id => id = s.id
  | _ => False

/-- The operation is the first chunk of a file that is staged at the path, or cancels its session
while the file is not complete. No file of the session has the path for its final path: the session
knows nothing of what is complete there. -/
def Operation.Discards (r : Receiver) (p : Path) (o : Operation) : Prop :=
  ∃ s t, r.session = some s ∧ t ∈ s.files ∧ t.completed = false ∧ t.stagingPath.sameAs p ∧
    (∀ u ∈ s.files, ¬u.finalPath.sameAs p) ∧ o.Touches s t

/-- The operation brings the last chunk of a file with the path for its final path, and the path is
cleared for the file. -/
def Operation.Finalizes (r : Receiver) (p : Path) : Operation → Prop
  | .writeChunk id fileId bytes => ∃ s t, r.session = some s ∧ id = some s.id ∧
      s.file? fileId = some t ∧ t.finalPath.sameAs p ∧ t.Clears bytes r.disk
  | _ => False

namespace Receiver

variable {r r' : Receiver} {o : Operation} {p : Path}

/-- No operation of a run discards what stands at the path, or finalizes a file for it. -/
def Spares (p : Path) : Receiver → List Operation → Prop
  | _, [] => True
  | r, o :: rest => ¬o.Discards r p ∧ ¬o.Finalizes r p ∧ Spares p (r.perform o).2 rest

/-- Nothing has come of a file of the current session that is staged at the path. -/
def Unbegun (r : Receiver) (p : Path) : Prop :=
  ∀ s, r.session = some s → ∀ t ∈ s.files, t.completed = false → t.stagingPath.sameAs p →
    t.received = 0

/-- In a session that has a file for a path, no file is staged there. -/
theorem Orderly.stagedElsewhere (hr : r.Orderly) {s : Session} (hs : r.session = some s)
    (ht : t ∈ s.files) {u : Transfer} (hu : u ∈ s.files) (hup : u.finalPath.sameAs p) :
    ¬t.stagingPath.sameAs p := by
  intro htp
  have hsame : t.stagingPath.components = u.finalPath.components :=
    (beq_iff_eq.mp htp).trans (beq_iff_eq.mp hup).symm
  rcases hr.apart s hs t ht u hu with rfl | hapart
  · obtain ⟨name, hname⟩ := hr.lies s hs t ht
    rw [hname.final] at hsame
    exact FileName.staged_ne name ((hname.stagingPath_sameAs hname.plain).mp (beq_iff_eq.mpr hsame))
  · exact hapart.stagingFinal hsame

/-- A file that an operation touches is not staged at a path where the operation discards
nothing. -/
theorem Orderly.stagedAway (hr : r.Orderly) {s : Session} (hs : r.session = some s)
    (ht : t ∈ s.files) (hopen : t.completed = false) (hstay : ¬o.Discards r p)
    (htouched : o.Touches s t) : ¬t.stagingPath.sameAs p := by
  intro htp
  by_cases hfor : ∃ u ∈ s.files, u.finalPath.sameAs p
  · obtain ⟨u, hu, hup⟩ := hfor
    exact hr.stagedElsewhere hs ht hu hup htp
  · exact hstay ⟨s, t, hs, ht, hopen, htp, fun u hu hup => hfor ⟨u, hu, hup⟩, htouched⟩

/-- A complete file stands at the path of a name, and nothing has come of a file that is staged
there. -/
structure Kept (r : Receiver) (name : String) (loc : Location) (e : Entry) : Prop where
  orderly : r.Orderly
  plain : FileName.IsPlain name.toList
  stands : r.disk.Stands r.outputFolder name loc e
  unbegun : r.Unbegun (r.outputFolder.join name)

section Chunk

variable {s : Session} {fileId : String}

theorem Kept.stagedAway (h : r.Kept name loc e) (hs : r.session = some s)
    (hfile : s.file? fileId = some t) (hopen : t.completed = false)
    (hstay : ¬(Operation.writeChunk (some s.id) fileId bytes).Discards r
      (r.outputFolder.join name)) : ¬t.stagingPath.sameAs (r.outputFolder.join name) := by
  intro htp
  have hmem := Session.mem_of_file? hfile
  have hzero := h.unbegun s hs t hmem hopen htp
  exact h.orderly.stagedAway hs hmem hopen hstay ⟨rfl, hfile, hzero⟩ htp

theorem Kept.receive_get? (h : r.Kept name loc e) (hs : r.session = some s)
    (hfile : s.file? fileId = some t)
    (hstay : ¬(Operation.writeChunk (some s.id) fileId bytes).Discards r
      (r.outputFolder.join name))
    (hfinal : ¬(Operation.writeChunk (some s.id) fileId bytes).Finalizes r
      (r.outputFolder.join name)) :
    (t.receive bytes r.disk).2.2.get? (loc ++ [name]) = r.disk.get? (loc ++ [name]) := by
  by_cases hdone : t.completed = true
  · rw [Transfer.receive_completed hdone]
  have hopen := eq_false_of_ne_true hdone
  obtain ⟨own, hlies⟩ := h.orderly.lies s hs t (Session.mem_of_file? hfile)
  have haway := h.stagedAway hs hfile hopen hstay
  rw [hlies.stagingPath_sameAs h.plain] at haway
  refine Transfer.receive_spares hlies h.orderly.linkFree h.stands.isAt haway fun hown hclears => ?_
  have hpath := (hlies.finalPath_sameAs h.plain).mpr hown
  exact hfinal ⟨s, t, hs, rfl, hfile, hpath, hclears⟩

theorem Kept.unbegun_update (h : r.Kept name loc e) (hs : r.session = some s)
    (hfile : s.file? fileId = some t)
    (hstay : ¬(Operation.writeChunk (some s.id) fileId bytes).Discards r
      (r.outputFolder.join name)) {result : ChunkResult}
    (hreceive : t.receive bytes r.disk = (result, t', d')) {x : Transfer}
    (hx : x ∈ (s.update t').files) (hopen : x.completed = false)
    (hxp : x.stagingPath.sameAs (r.outputFolder.join name)) : x.received = 0 := by
  rcases Session.mem_update hx with hxt | ⟨hx, -⟩
  · by_cases hdone : t.completed = true
    · rw [Transfer.receive_completed hdone] at hreceive
      cases hreceive
      rw [hxt, hdone] at hopen
      cases hopen
    · have haway := h.stagedAway hs hfile (eq_false_of_ne_true hdone) hstay
      rw [hxt, (Transfer.receive_paths hreceive).2.2] at hxp
      exact absurd hxp haway
  · exact h.unbegun s hs x hx hopen hxp

end Chunk

/-- **Every operation spares what is kept.** It stays, unless the operation discards it or
finalizes a file for its path. -/
theorem Kept.move (hk : r.Kept name loc e) (h : r.Move o r')
    (hstay : ¬o.Discards r (r.outputFolder.join name))
    (hfinal : ¬o.Finalizes r (r.outputFolder.join name)) : r'.Kept name loc e := by
  have hnext := h.orderly hk.orderly
  have hs := hk.stands
  cases h with
  | refused => exact hk
  | paired => exact ⟨hnext, hk.plain, hs, hk.unbegun⟩
  | unprepared id manifest d _ grows =>
    have hthere := (grows.get? hs.entry).trans hs.entry.symm
    exact ⟨hnext, hk.plain, hs.keeps grows.keeps hthere, hk.unbegun⟩
  | opened id manifest d _ grows =>
    have hthere := (grows.get? hs.entry).trans hs.entry.symm
    refine ⟨hnext, hk.plain, hs.keeps grows.keeps hthere, fun s hcurrent t ht _ _ => ?_⟩
    cases hcurrent
    exact (Admission.separate_ofManifest r.policy r.outputFolder manifest).unbegun t
      (List.mem_reverse.mp ht)
  | written fileId bytes s t result t' d current file received =>
    obtain ⟨own, hlies⟩ := hk.orderly.lies s current t (Session.mem_of_file? file)
    have hedits := Transfer.receive_edits (hlies.placed hk.orderly.linkFree hs.isAt) bytes
    have hthere := hk.receive_get? current file hstay hfinal
    rw [received] at hedits hthere
    refine ⟨hnext, hk.plain, hs.keeps hedits.keeps hthere, fun s' hs' x hx hopen hxp => ?_⟩
    cases hs'
    exact hk.unbegun_update current file hstay received hx hopen hxp
  | cancelled s _ current =>
    obtain ⟨locs, hedits, hlocs⟩ := Session.removeStaging_edits s.files hk.orderly.linkFree hs.isAt
      (hk.orderly.lies s current)
    refine ⟨hnext, hk.plain, hs.keeps hedits.keeps (hedits.get?_eq fun hmem => ?_), nofun⟩
    obtain ⟨t, ht, hopen, own, hlies, hplace⟩ := hlocs _ hmem
    have haway := hk.orderly.stagedAway current ht hopen hstay rfl
    rw [hlies.stagingPath_sameAs hk.plain] at haway
    exact haway (by simpa using hplace.symm)

theorem kept_run (hk : r.Kept name loc e) (operations : List Operation)
    (hspare : r.Spares (r.outputFolder.join name) operations) :
    (r.run operations).Kept name loc e ∧ (r.run operations).outputFolder = r.outputFolder := by
  induction operations generalizing r with
  | nil => exact ⟨hk, rfl⟩
  | cons o rest ih =>
    obtain ⟨hstay, hfinal, hrest⟩ := hspare
    have hmove := perform_moves r o
    have hnext := hk.move hmove hstay hfinal
    rw [← hmove.outputFolder] at hrest ⊢
    exact ih hnext hrest

/-! ### What is discarded -/

/-- **What is discarded is lost.** With nothing left to fail, an operation that discards what is
kept leaves nothing there, or the chunk that it brings. -/
theorem Kept.discarded (hk : r.Kept name loc e) (hg : r.Guarded) (hq : r.disk.faults = [])
    (hdev : e ≠ .fullDevice) (h : o.Discards r (r.outputFolder.join name)) :
    (r.perform o).2.disk.entryAt? (r.outputFolder.join name) = none ∨
      ∃ id fileId bytes mode, o = .writeChunk id fileId bytes ∧
        (r.perform o).2.disk.entryAt? (r.outputFolder.join name) = some (.file mode bytes) := by
  obtain ⟨s, t, current, ht, hopen, hstaged, -, htouched⟩ := h
  obtain ⟨own, hlies⟩ := hk.orderly.lies s current t ht
  obtain rfl := (hlies.stagingPath_sameAs hk.plain).mp hstaged
  have hd := hk.orderly.linkFree
  have hs := hk.stands
  match o, htouched with
  | .cancelSession _, rfl =>
    have hpeer : r.peer.isNone = false := by
      have hsome := hg (by rw [current]; rfl)
      rwa [Option.isSome_iff_ne_none, ne_eq, ← Option.isNone_iff_eq_none, Bool.not_eq_true] at hsome
    have hafter : (r.perform (.cancelSession s.id)).2.disk =
        (Session.removeStaging s.files r.disk).2 := by
      change (r.cancelForPeer s.id).2.disk = _
      simp [cancelForPeer, cancelSession, hpeer, current]
    obtain ⟨locs, hedits, -⟩ := Session.removeStaging_edits s.files hd hs.isAt
      (hk.orderly.lies s current)
    left
    rw [hafter, (hs.leads.edits hedits).entryAt?]
    refine Session.removeStaging_gone hd hs.isAt (hk.orderly.lies s current) hq ht hopen hlies ?_
      hs.ordinary
    rw [hlies.staging]
    exact hs.leads
  | .writeChunk _ fileId bytes, ⟨rfl, hfile, hzero⟩ =>
    have hafter : (r.perform (.writeChunk (some s.id) fileId bytes)).2.disk =
        (t.receive bytes r.disk).2.2 := by
      change (r.writeChunk (some s.id) fileId bytes).2.disk = _
      simp [writeChunk, current, hfile]
    have hedits := Transfer.receive_edits (hlies.placed hd hs.isAt) bytes
    rw [hafter, (hs.leads.edits hedits).entryAt?]
    refine (Transfer.receive_replaces hlies hd hs hq hdev hopen hzero bytes).imp_right ?_
    rintro ⟨mode, hfile⟩
    exact ⟨_, fileId, bytes, mode, rfl, hfile⟩

/-! ### Completing -/

/-- The chunk that completes a file leaves it at its final path, where it is kept. -/
theorem writeChunk_kept (hr : r.Orderly) {id : Option String} {fileId : String}
    {report : ChunkReport} (hfile : r.file? fileId = some t) (hopen : t.completed = false)
    (hwrite : r.writeChunk id fileId bytes = (.ok report, r'))
    (hdone : report.result.status = .completed) :
    ∃ name loc e, t.finalPath = r.outputFolder.join name ∧ r'.Kept name loc e := by
  have hnext := (perform_moves r (.writeChunk id fileId bytes)).orderly hr
  change (r.writeChunk id fileId bytes).2.Orderly at hnext
  obtain ⟨s, current, hfile⟩ := Option.bind_eq_some_iff.mp hfile
  have hmem := Session.mem_of_file? hfile
  obtain ⟨name, hlies⟩ := hr.lies s current t hmem
  obtain ⟨loc, hloc⟩ := r.disk.exists_isAt r.outputFolder
  by_cases hid : id ≠ some s.id
  · simp [writeChunk, current, hid] at hwrite
  obtain rfl := Decidable.not_not.mp hid
  rcases h : t.receive bytes r.disk with ⟨result, t', d'⟩
  have hafter : r.writeChunk (some s.id) fileId bytes =
      (.ok (t'.report s.id result), { r with session := some (s.update t'), disk := d' }) := by
    simp [writeChunk, current, hfile, h]
  rw [hafter] at hwrite hnext
  cases hwrite
  change result.status = .completed at hdone
  obtain ⟨e, hstands⟩ := Transfer.receive_stands hlies hr.linkFree hloc hopen
    (show (t.receive bytes r.disk).1.status = .completed by rw [h]; exact hdone)
  rw [h] at hstands
  obtain ⟨hid, hfinal, -⟩ := Transfer.receive_paths h
  refine ⟨name, loc, e, hlies.final, hnext, hlies.plain, hstands, fun s' hs' x hx hxopen hxp => ?_⟩
  cases hs'
  -- The complete file is one of the session, so that none of its files is staged where it stands.
  have hmem' : t' ∈ (s.update t').files := List.mem_map.mpr ⟨t, hmem, if_pos hid.symm⟩
  refine absurd hxp (hnext.stagedElsewhere rfl hx hmem' ?_)
  rw [hfinal]
  exact (hlies.finalPath_sameAs hlies.plain).mpr rfl

theorem orderly_of_idle (hs : r.session = none) (hd : r.disk.LinkFree) : r.Orderly := by
  refine ⟨hd, fun s current => ?_, fun s current => ?_⟩
  all_goals
    rw [hs] at current
    cases current

/-- **What is complete stays.** After the chunk that completes a file, what stands at the final path
stays there as long as no operation discards it or finalizes a file for the path. With nothing left
to fail, an operation that discards it leaves nothing there, or the chunk that it brings. -/
theorem completed_survives {start : Receiver} (hidle : start.session = none)
    (hlinks : start.disk.LinkFree) (before : List Operation) {id : Option String} {fileId : String}
    {report : ChunkReport} (hfile : (start.run before).file? fileId = some t)
    (hopen : t.completed = false)
    (hwrite : (start.run before).writeChunk id fileId bytes = (.ok report, r))
    (hdone : report.result.status = .completed) :
    ∃ e, r.disk.entryAt? t.finalPath = some e ∧
      ∀ after, r.Spares t.finalPath after →
        (r.run after).disk.entryAt? t.finalPath = some e ∧
        ∀ o : Operation, o.Discards (r.run after) t.finalPath → (r.run after).disk.faults = [] →
          e ≠ .fullDevice →
          let there := ((r.run after).perform o).2.disk.entryAt? t.finalPath
          there = none ∨ ∃ id fileId bytes mode,
            o = .writeChunk id fileId bytes ∧ there = some (.file mode bytes) := by
  have hbefore := orderly_run (orderly_of_idle hidle hlinks) before
  have hguarded : start.Guarded := fun hsome => by
    rw [hidle] at hsome
    cases hsome
  obtain ⟨name, loc, e, hpath, hkept⟩ := writeChunk_kept hbefore hfile hopen hwrite hdone
  have hmove := perform_moves (start.run before) (.writeChunk id fileId bytes)
  have hnext := hmove.guarded (guarded_run hguarded before)
  have hperform : ((start.run before).perform (.writeChunk id fileId bytes)).2 = r := by
    simp [perform, hwrite]
  rw [hperform] at hmove hnext
  rw [hpath, ← hmove.outputFolder]
  refine ⟨e, hkept.stands.entryAt?, fun after hspare => ?_⟩
  obtain ⟨hafter, hfolder⟩ := kept_run hkept after hspare
  rw [← hfolder]
  refine ⟨hafter.stands.entryAt?, fun o hdiscards hq hdev => ?_⟩
  exact hafter.discarded (guarded_run hnext after) hq hdev hdiscards

/-- A session is opened for `a.part`. -/
def partOpened : List Operation :=
  [.pair "123456" { id := "d", nickname := "n" },
    .openSession "s1" [("f", { name := some "a.part", size := 1 })]]

/-- The receiver that has `a.part`. -/
def partReceived : Receiver :=
  ((unpairedExample.run partOpened).writeChunk (some "s1") "f" ⟨#[7]⟩).2

/-- A later session is opened, for `a`. -/
def laterOpened : Operation := .openSession "s2" [("g", { name := some "a", size := 2 })]

def laterSession : Session :=
  ⟨"s2", [Transfer.ofOffer "g" { name := some "a", size := 2 } ⟨"out"⟩ []]⟩

theorem completed_survives_until_cancelled :
    (partReceived.run [laterOpened]).disk.contentAt? ⟨"out/a.part"⟩ = some ⟨#[7]⟩ ∧
      ((partReceived.run [laterOpened]).perform (.cancelSession "s2")).2.disk.entryAt?
        ⟨"out/a.part"⟩ = none := by
  have hlinks : unpairedExample.disk.LinkFree := fun loc target => by
    simp only [unpairedExample, Disk.get?]
    split <;> simp
  have hfile : (unpairedExample.run partOpened).file? "f" =
      some (Transfer.ofOffer "f" { name := some "a.part", size := 1 } ⟨"out"⟩ []) := by
    decide +kernel
  have hreport : ((unpairedExample.run partOpened).writeChunk (some "s1") "f" ⟨#[7]⟩).1.toOption =
      some ⟨"s1", "f", .completed, 1, none⟩ := by
    decide +kernel
  have hwrite : (unpairedExample.run partOpened).writeChunk (some "s1") "f" ⟨#[7]⟩ =
      (.ok ⟨"s1", "f", .completed, 1, none⟩, partReceived) := by
    refine Prod.ext ?_ rfl
    generalize ((unpairedExample.run partOpened).writeChunk (some "s1") "f" ⟨#[7]⟩).1 = res
      at hreport ⊢
    cases res with
    | error e => cases hreport
    | ok report => exact congrArg Except.ok (Option.some.inj hreport)
  have hlater : (partReceived.run [laterOpened]).session = some laterSession ∧
      (partReceived.run [laterOpened]).disk.faults = [] := by
    decide +kernel
  have hcontent : partReceived.disk.contentAt? ⟨"out/a.part"⟩ = some ⟨#[7]⟩ := by decide +kernel
  have hpath : (Transfer.ofOffer "f" { name := some "a.part", size := 1 } ⟨"out"⟩ []).finalPath =
      ⟨"out/a.part"⟩ := by decide +kernel
  obtain ⟨e, hentry, hall⟩ := completed_survives rfl hlinks partOpened hfile rfl hwrite rfl
  rw [hpath] at hentry hall
  rw [Disk.contentAt?, hentry] at hcontent
  have hspares : partReceived.Spares ⟨"out/a.part"⟩ [laterOpened] := by
    refine ⟨?_, id, trivial⟩
    rintro ⟨_, _, _, _, _, _, _, htouched⟩
    exact htouched
  obtain ⟨hstill, hlost⟩ := hall [laterOpened] hspares
  have hdiscards : (Operation.cancelSession "s2").Discards (partReceived.run [laterOpened])
      ⟨"out/a.part"⟩ :=
    ⟨laterSession, _, hlater.1, List.mem_singleton_self _, rfl, by decide +kernel,
      by decide +kernel, rfl⟩
  refine ⟨by rw [Disk.contentAt?, hstill]; exact hcontent, ?_⟩
  rcases hlost _ hdiscards hlater.2 (fun hdev => by rw [hdev] at hcontent; cases hcontent) with
    hgone | ⟨_, _, _, _, hwrite, -⟩
  · exact hgone
  · cases hwrite

/-- The first chunk of a file of a later session takes the place of a file that is complete. -/
theorem completed_overwritten :
    partReceived.disk.contentAt? ⟨"out/a.part"⟩ = some ⟨#[7]⟩ ∧
      (partReceived.run [laterOpened, .writeChunk (some "s2") "g" ⟨#[8]⟩]).disk.contentAt?
        ⟨"out/a.part"⟩ = some ⟨#[8]⟩ := by
  decide +kernel

end Receiver
end FileReceiver
