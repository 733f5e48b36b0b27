/-
# What a call changes

Every call on a disk fails and leaves the entries alone, or does one thing to
one or two entries. The calls by which a chunk is received touch no folder and
no link (`Edits`), so that every path leads where it led before. What a call
does is said for every fault it may draw; that it succeeds is said apart, for
a disk on which nothing is left to fail.

Key definitions: `Disk.Edits`, `Disk.Aims`, `Disk.Leads`.
Key theorems: `Disk.Edits.keeps`, `Disk.openFresh_cases`, `Disk.openEnd_cases`,
`Disk.write_file`, `Disk.setLength_file`, `Disk.remove_cases`,
`Disk.rename_cases`.
-/
import FileReceiver.Proofs.Folders

namespace FileReceiver
namespace Disk

open FileName (IsPlain)

variable {d d' d'' : Disk} {locs : List Location} {loc : Location}

/-! ### Edits -/

/-- Neither a folder nor a link stands at a location. -/
def Ordinary (d : Disk) (loc : Location) : Prop :=
  d.get? loc ≠ some .folder ∧ ∀ target, d.get? loc ≠ some (.link target)

/-- Two disks are the same but for what stands at some locations, which is no folder and no link on
either, and for the faults to come. -/
structure Edits (d : Disk) (locs : List Location) (d' : Disk) : Prop where
  workingFolder : d'.workingFolder = d.workingFolder
  quiet : d.faults = [] → d'.faults = []
  entry : ∀ loc, d'.get? loc = d.get? loc ∨ loc ∈ locs ∧ d.Ordinary loc ∧ d'.Ordinary loc

theorem Ordinary.congr (h : d.Ordinary loc) (he : d'.get? loc = d.get? loc) : d'.Ordinary loc := by
  unfold Ordinary
  rw [he]
  exact h

theorem ordinary_none (h : d.get? loc = none) : d.Ordinary loc := by simp [Ordinary, h]

theorem ordinary_file {mode : Nat} {content : ByteArray}
    (h : d.get? loc = some (.file mode content)) : d.Ordinary loc := by simp [Ordinary, h]

theorem Edits.refl (d : Disk) : d.Edits [] d := ⟨rfl, id, fun _ => Or.inl rfl⟩

theorem Edits.mono {more : List Location} (h : d.Edits locs d') (hsub : locs ⊆ more) :
    d.Edits more d' :=
  ⟨h.workingFolder, h.quiet, fun loc => (h.entry loc).imp_right fun hl => ⟨hsub hl.1, hl.2⟩⟩

theorem Edits.of_nil (h : d.Edits [] d') : d.Edits locs d' := h.mono (List.nil_subset locs)

theorem Edits.trans (h : d.Edits locs d') (h' : d'.Edits locs d'') : d.Edits locs d'' := by
  refine ⟨h'.workingFolder.trans h.workingFolder, fun hq => h'.quiet (h.quiet hq), fun loc => ?_⟩
  rcases h.entry loc with he | ⟨hmem, hord, hord'⟩
  · rcases h'.entry loc with he' | ⟨hmem, hord', hord''⟩
    · exact Or.inl (he'.trans he)
    · exact Or.inr ⟨hmem, hord'.congr he.symm, hord''⟩
  · rcases h'.entry loc with he' | ⟨-, -, hord''⟩
    · exact Or.inr ⟨hmem, hord, hord'.congr he'⟩
    · exact Or.inr ⟨hmem, hord, hord''⟩

theorem Edits.get?_eq (h : d.Edits locs d') (hl : loc ∉ locs) : d'.get? loc = d.get? loc :=
  (h.entry loc).resolve_right fun hc => hl hc.1

theorem Edits.get?_of_nil (h : d.Edits [] d') (loc : Location) : d'.get? loc = d.get? loc :=
  h.get?_eq List.not_mem_nil

theorem Edits.folder (h : d.Edits locs d') :
    d'.get? loc = some .folder ↔ d.get? loc = some .folder := by
  rcases h.entry loc with he | ⟨-, hord, hord'⟩
  · rw [he]
  · exact iff_of_false hord'.1 hord.1

theorem Edits.link (h : d.Edits locs d') (target : String) :
    d'.get? loc = some (.link target) ↔ d.get? loc = some (.link target) := by
  rcases h.entry loc with he | ⟨-, hord, hord'⟩
  · rw [he]
  · exact iff_of_false (hord'.2 target) (hord.2 target)

theorem Ordinary.edits (h : d.Ordinary loc) (he : d.Edits locs d') : d'.Ordinary loc := by
  rcases he.entry loc with hsame | ⟨-, -, hord⟩
  · exact h.congr hsame
  · exact hord

/-- Edits leave every path where it led. -/
theorem Edits.keeps (h : d.Edits locs d') : d.Keeps d' :=
  ⟨h.workingFolder, fun _ => h.folder.mpr, fun _ => h.link⟩

theorem Edits.keeps_back (h : d.Edits locs d') : d'.Keeps d :=
  ⟨h.workingFolder.symm, fun _ => h.folder.mp, fun _ target => (h.link target).symm⟩

theorem Edits.resolve (h : d.Edits locs d') {lastName : LastName} {p : Path} {place : Place} :
    d'.resolve lastName p = .ok place ↔ d.resolve lastName p = .ok place :=
  ⟨resolve_mono h.keeps_back, resolve_mono h.keeps⟩

/-! ### Paths to one entry -/

/-- Wherever a path leads, it leads to one location by a name, and no link stands there. -/
def Aims (d : Disk) (p : Path) (loc : Location) : Prop :=
  ∀ lastName place, d.resolve lastName p = .ok place →
    (∃ folder name, place = ⟨folder, .name name, false⟩ ∧ loc = folder ++ [name]) ∧
      ∀ target, d.get? loc ≠ some (.link target)

/-- A path leads to a name in a folder that a file can have, whatever the call. -/
structure Leads (d : Disk) (p : Path) (folder : Location) (name : String) : Prop where
  fits : name.utf8ByteSize ≤ nameLimit
  resolve : ∀ lastName, d.resolve lastName p = .ok ⟨folder, .name name, false⟩

variable {p : Path}

theorem Aims.location (h : d.Aims p loc) {lastName : LastName} {place : Place}
    (hr : d.resolve lastName p = .ok place) : place.location = loc := by
  obtain ⟨⟨folder, name, rfl, rfl⟩, -⟩ := h lastName place hr
  rfl

theorem Aims.edits (h : d.Aims p loc) (he : d.Edits locs d') : d'.Aims p loc := by
  intro lastName place hr
  obtain ⟨hplace, hlink⟩ := h lastName place (he.resolve.mp hr)
  exact ⟨hplace, fun target ht => hlink target ((he.link target).mp ht)⟩

theorem Leads.keeps {folder : Location} {name : String} (h : d.Leads p folder name)
    (hk : d.Keeps d') : d'.Leads p folder name :=
  ⟨h.fits, fun lastName => resolve_mono hk (h.resolve lastName)⟩

theorem Leads.edits {folder : Location} {name : String} (h : d.Leads p folder name)
    (he : d.Edits locs d') : d'.Leads p folder name :=
  h.keeps he.keeps

/-- A path leads to one entry, by a name that is not too long to be looked up. -/
def Reaches (d : Disk) (p : Path) (loc : Location) : Prop :=
  ∃ folder name, loc = folder ++ [name] ∧ d.resolve .kept p = .ok ⟨folder, .name name, false⟩ ∧
    name.utf8ByteSize ≤ nameLimit

/-- What stands where a path leads, a link included. -/
def entryAt? (d : Disk) (p : Path) : Option Entry :=
  match d.resolve .kept p with
  | .ok place => d.get? place.location
  | .error _ => none

/-- The content of the file that stands where a path leads. -/
def contentAt? (d : Disk) (p : Path) : Option ByteArray :=
  match d.entryAt? p with
  | some (.file _ content) => some content
  | _ => none

theorem Reaches.entryAt? (h : d.Reaches p loc) : d.entryAt? p = d.get? loc := by
  obtain ⟨folder, name, rfl, hr, -⟩ := h
  rw [Disk.entryAt?, hr]
  rfl

theorem Leads.entryAt? {folder : Location} {name : String} (h : d.Leads p folder name) :
    d.entryAt? p = d.get? (folder ++ [name]) := by
  unfold Disk.entryAt?
  rw [h.resolve]
  rfl

/-- The path of an entry leads nowhere but to the name in the location of its folder. -/
theorem resolve_join_ok {lastName : LastName} {folder : Path} {name : String} {place : Place}
    (h : IsPlain name.toList) (hlink : lastName = .kept ∨ d.NoLink name (d.folderAt folder))
    (hr : d.resolve lastName (folder.join name) = .ok place) :
    ∃ loc, d.folderAt folder = .ok loc ∧ place = ⟨loc, .name name, false⟩ := by
  rw [resolve_join h hlink] at hr
  split at hr
  · cases hr
  split at hr
  · cases hr
  rcases hloc : d.folderAt folder with e | loc
  · rw [hloc] at hr
    cases hr
  refine ⟨loc, rfl, ?_⟩
  rw [hloc] at hr
  change d.lastIn lastName name loc = .ok place at hr
  unfold lastIn at hr
  split at hr
  · cases hr
    rfl
  · cases hlook : d.lookUp loc name with
    | error e =>
      rw [hlook] at hr
      cases hr
    | ok there =>
      rw [hlook] at hr
      cases hr
      rfl

/-- If the entries of a folder stand anywhere, it is at a location. -/
def IsAt (d : Disk) (folder : Path) (loc : Location) : Prop :=
  ∀ found, d.folderAt folder = .ok found → found = loc

theorem isAt_of_folderAt {folder : Path} (h : d.folderAt folder = .ok loc) : d.IsAt folder loc := by
  intro found hfound
  rw [h] at hfound
  exact (Except.ok.inj hfound).symm

theorem exists_isAt (d : Disk) (folder : Path) : ∃ loc, d.IsAt folder loc := by
  rcases h : d.folderAt folder with e | loc
  · exact ⟨[], fun found hfound => by rw [h] at hfound; cases hfound⟩
  · exact ⟨loc, isAt_of_folderAt h⟩

theorem IsAt.edits {folder : Path} (h : d.IsAt folder loc) (he : d.Edits locs d') :
    d'.IsAt folder loc :=
  fun found hfound => h found (folderAt_mono he.keeps_back hfound)

theorem noLink_of_isAt {folder : Path} {name : String} {loc : Location} (hloc : d.IsAt folder loc)
    (hlink : ∀ target, d.get? (loc ++ [name]) ≠ some (.link target)) :
    d.NoLink name (d.folderAt folder) := by
  intro found target hfound
  rw [hloc found hfound]
  exact hlink target

theorem entryAt?_of_resolve {place : Place} (h : d.resolve .kept p = .ok place) :
    d.entryAt? p = d.get? place.location := by
  rw [Disk.entryAt?, h]

/-- The path of an entry that leads somewhere leads to the entry for a call that leaves it alone. -/
theorem resolve_join_kept {lastName : LastName} {folder : Path} {name : String} {place : Place}
    (h : IsPlain name.toList) (hr : d.resolve lastName (folder.join name) = .ok place) :
    ∃ loc, d.folderAt folder = .ok loc ∧
      d.resolve .kept (folder.join name) = .ok ⟨loc, .name name, false⟩ := by
  rcases hloc : d.folderAt folder with e | loc
  · have hlink : d.NoLink name (d.folderAt folder) := fun found target hfound => by
      rw [hloc] at hfound
      cases hfound
    obtain ⟨found, hfound, -⟩ := resolve_join_ok h (Or.inr hlink) hr
    rw [hloc] at hfound
    cases hfound
  · refine ⟨loc, rfl, ?_⟩
    unfold resolve at hr
    split at hr
    · cases hr
    rename_i hzero
    split at hr
    · cases hr
    split at hr
    · cases hr
    rename_i hlong
    rw [resolve_join h (Or.inl rfl), if_neg hzero, if_neg hlong, hloc]
    rfl

/-- The path of an entry that is no link aims at the name in the location of its folder. -/
theorem aims_join {folder : Path} {name : String} {loc : Location} (h : IsPlain name.toList)
    (hloc : d.IsAt folder loc)
    (hlink : ∀ target, d.entryAt? (folder.join name) ≠ some (.link target)) :
    d.Aims (folder.join name) (loc ++ [name]) := by
  intro lastName place hr
  obtain ⟨found, hfound, hkept⟩ := resolve_join_kept h hr
  have hat := hloc found hfound
  subst hat
  rw [entryAt?_of_resolve hkept] at hlink
  obtain ⟨other, hother, rfl⟩ := resolve_join_ok h (Or.inr (noLink_of_isAt hloc hlink)) hr
  exact ⟨⟨found, name, by rw [hloc other hother], rfl⟩, hlink⟩

/-- A path that leads to a name leads there for every call, if no link stands there. -/
theorem leads_join {lastName : LastName} {folder : Path} {name : String} {place : Place}
    (h : IsPlain name.toList) (hr : d.resolve lastName (folder.join name) = .ok place)
    (hlen : name.utf8ByteSize ≤ nameLimit) (hlink : d.NoLink name (d.folderAt folder)) :
    ∃ loc, d.folderAt folder = .ok loc ∧ d.Leads (folder.join name) loc name := by
  obtain ⟨loc, hloc, -⟩ := resolve_join_ok h (Or.inr hlink) hr
  refine ⟨loc, hloc, hlen, fun other => ?_⟩
  rw [resolve_join h (Or.inr hlink)] at hr ⊢
  split at hr
  · cases hr
  rename_i hzero
  split at hr
  · cases hr
  rename_i hlong
  rw [if_neg hzero, if_neg hlong, hloc]
  change d.lastIn other name loc = _
  unfold lastIn
  rw [lookUp_of_le hlen]
  split <;> rfl

/-- Where the path of an entry reaches a name, it leads there for every call. -/
theorem Reaches.join {folder : Path} {name : String} (h : IsPlain name.toList)
    (hr : d.Reaches (folder.join name) loc) (hlink : ∀ target, d.get? loc ≠ some (.link target)) :
    ∃ found, loc = found ++ [name] ∧ d.folderAt folder = .ok found ∧
      d.Leads (folder.join name) found name := by
  obtain ⟨found, last, rfl, hkept, hlen⟩ := hr
  obtain ⟨other, hother, hplace⟩ := resolve_join_ok h (Or.inl rfl) hkept
  cases hplace
  have hat := isAt_of_folderAt hother
  obtain ⟨loc, hloc, hleads⟩ := leads_join h hkept hlen (noLink_of_isAt hat hlink)
  rw [hat loc hloc] at hleads
  exact ⟨found, rfl, hother, hleads⟩

theorem lookAt_ok {place : Place} {there : Option Entry} (h : d.lookAt place = .ok there) :
    d.get? place.location = there := by
  unfold lookAt at h
  unfold Place.location
  split at h
  · rename_i heq
    rw [heq]
    exact (lookUp_ok h).2
  · exact Except.ok.inj h

/-! ### One location -/

theorem ne_nil_of_not_folder (h : d.get? loc ≠ some .folder) : loc ≠ [] := by
  rintro rfl
  exact h rfl

theorem edits_put {e : Entry} (h : d.Ordinary loc) (hf : e ≠ .folder) (hl : ∀ t, e ≠ .link t) :
    d.Edits [loc] (d.put loc e) ∧ (d.put loc e).get? loc = some e := by
  have hne := ne_nil_of_not_folder h.1
  have hget : (d.put loc e).get? loc = some e := by rw [get?_put, if_neg hne, if_pos rfl]
  refine ⟨⟨rfl, id, fun place => ?_⟩, hget⟩
  by_cases hp : place = loc
  · subst hp
    exact Or.inr ⟨List.mem_singleton_self _, h, by simp [Ordinary, hget, hf, hl]⟩
  · left
    rw [get?_put, if_neg (Ne.symm hp)]
    split
    · rename_i hroot
      rw [hroot, get?_root]
    · rfl

theorem edits_erase (h : d.Ordinary loc) :
    d.Edits [loc] (d.erase loc) ∧ (d.erase loc).get? loc = none := by
  have hne := ne_nil_of_not_folder h.1
  have hget : (d.erase loc).get? loc = none := by rw [get?_erase, if_neg hne, if_pos rfl]
  refine ⟨⟨rfl, id, fun place => ?_⟩, hget⟩
  by_cases hp : place = loc
  · subst hp
    exact Or.inr ⟨List.mem_singleton_self _, h, ordinary_none hget⟩
  · left
    rw [get?_erase, if_neg (Ne.symm hp)]
    split
    · rename_i hroot
      rw [hroot, get?_root]
    · rfl

/-! ### Drawing faults -/

/-- The disk once a call has drawn its fault. -/
def later (d : Disk) : Disk := { d with faults := d.faults.tail }

@[simp]
theorem get?_later (d : Disk) (loc : Location) : d.later.get? loc = d.get? loc := rfl

theorem later_of_quiet (h : d.faults = []) : d.later = d := by
  unfold later
  rw [h, List.tail_nil, ← h]

theorem edits_later (d : Disk) : d.Edits locs d.later :=
  ⟨rfl, fun h => by simp [later, h], fun _ => Or.inl rfl⟩

theorem resolve_later {lastName : LastName} {p : Path} {place : Place} :
    d.later.resolve lastName p = .ok place ↔ d.resolve lastName p = .ok place :=
  (d.edits_later : d.Edits [] d.later).resolve

theorem draw_cases (d : Disk) :
    (∃ fault, d.draw = (some fault, d.later) ∧ d.faults ≠ []) ∨ d.draw = (none, d.later) := by
  cases hf : d.faults with
  | nil => exact Or.inr (by simp [draw, hf, later_of_quiet])
  | cons fault rest =>
    cases fault with
    | none => exact Or.inr (by simp [draw, hf, later])
    | some fault => exact Or.inl ⟨fault, by simp [draw, hf, later], by simp⟩

/-- A call fails by its fault, or is made on the disk without it. -/
theorem attempt_cases {α : Type} (d : Disk) (call : Disk → Outcome α) :
    (∃ e, d.attempt call = (.error e, d.later)) ∨ d.attempt call = call d.later := by
  unfold attempt
  rcases d.draw_cases with ⟨fault, hd, -⟩ | hd
  · exact Or.inl ⟨fault.error, by rw [hd]⟩
  · exact Or.inr (by rw [hd])

theorem attempt_quiet {α : Type} (h : d.faults = []) (call : Disk → Outcome α) :
    d.attempt call = call d := by
  simp [attempt, draw, h]

/-! ### Opening -/

/-- Opening from the start leaves an empty file, or the device that stands there. -/
theorem openFresh_cases {mode : Nat} {res : Except SystemError Location}
    (h : d.openFresh p mode = (res, d')) :
    (∃ e, res = .error e ∧ d.Edits [] d') ∨
      ∃ place, d.resolve .made p = .ok place ∧ res = .ok place.location ∧
        d.Edits [place.location] d' ∧
        ((∃ mode', d'.get? place.location = some (.file mode' .empty)) ∨
          d.get? place.location = some .fullDevice ∧
            d'.get? place.location = some .fullDevice) := by
  unfold openFresh at h
  rcases d.attempt_cases _ with ⟨e, ha⟩ | ha
  · rw [ha] at h
    cases h
    exact Or.inl ⟨e, rfl, d.edits_later⟩
  rw [ha] at h
  dsimp only at h
  split at h
  · cases h
    exact Or.inl ⟨_, rfl, d.edits_later⟩
  rename_i place hr
  have hplace := resolve_later.mp hr
  have hlater : d.Edits [place.location] d.later := d.edits_later
  split at h
  · rename_i hget
    cases h
    obtain ⟨he, hfile⟩ :=
      edits_put (ordinary_none hget) (e := .file mode .empty) (by simp) (by simp)
    exact Or.inr ⟨place, hplace, rfl, hlater.trans he, Or.inl ⟨mode, hfile⟩⟩
  · rename_i old content hget
    cases h
    obtain ⟨he, hfile⟩ := edits_put (ordinary_file hget) (e := .file old .empty) (by simp) (by simp)
    exact Or.inr ⟨place, hplace, rfl, hlater.trans he, Or.inl ⟨old, hfile⟩⟩
  · rename_i hget
    cases h
    exact Or.inr ⟨place, hplace, rfl, hlater, Or.inr ⟨hget, hget⟩⟩
  all_goals
    cases h
    exact Or.inl ⟨_, rfl, d.edits_later⟩

theorem openFresh_ok {mode : Nat} {place : Place} (hq : d.faults = [])
    (hr : d.resolve .made p = .ok place) (ho : d.Ordinary place.location) :
    (d.openFresh p mode).1 = .ok place.location := by
  rw [openFresh, attempt_quiet hq, hr]
  dsimp only
  split
  · rfl
  · rfl
  · rfl
  · rename_i hget
    exact absurd hget ho.1
  · rename_i target hget
    exact absurd hget (ho.2 target)

/-- Opening at the end changes nothing. -/
theorem openEnd_cases {res : Except SystemError Location} (h : d.openEnd p = (res, d')) :
    d.Edits [] d' ∧ ((∃ e, res = .error e) ∨
      ∃ place, d.resolve .followed p = .ok place ∧ res = .ok place.location ∧
        d.Ordinary place.location) := by
  unfold openEnd at h
  rcases d.attempt_cases _ with ⟨e, ha⟩ | ha
  · rw [ha] at h
    cases h
    exact ⟨d.edits_later, Or.inl ⟨e, rfl⟩⟩
  rw [ha] at h
  split at h
  · cases h
    exact ⟨d.edits_later, Or.inl ⟨_, rfl⟩⟩
  rename_i place hr
  have hplace := resolve_later.mp hr
  split at h
  · cases h
    exact ⟨d.edits_later, Or.inl ⟨_, rfl⟩⟩
  · cases h
    exact ⟨d.edits_later, Or.inl ⟨_, rfl⟩⟩
  · cases h
    exact ⟨d.edits_later, Or.inl ⟨_, rfl⟩⟩
  rename_i e hfolder hlink hget
  rw [get?_later] at hget
  split at h
  · cases h
    exact ⟨d.edits_later, Or.inl ⟨_, rfl⟩⟩
  · cases h
    refine ⟨d.edits_later, Or.inr ⟨place, hplace, rfl, ?_, fun target => ?_⟩⟩
    · rw [hget]
      exact fun he => hfolder (Option.some.inj he)
    · rw [hget]
      exact fun he => hlink target (Option.some.inj he)

theorem openEnd_ok {place : Place} {mode : Nat} {content : ByteArray} (hq : d.faults = [])
    (hr : d.resolve .followed p = .ok place) (hw : place.wantsFolder = false)
    (hf : d.get? place.location = some (.file mode content)) :
    (d.openEnd p).1 = .ok place.location := by
  rw [openEnd, attempt_quiet hq, hr]
  simp [hf, hw]

/-! ### Writing -/

theorem extend_file {mode : Nat} {content : ByteArray}
    (hf : d.get? loc = some (.file mode content)) (bytes : ByteArray) :
    d.Edits [loc] (d.extend loc bytes) ∧
      (d.extend loc bytes).get? loc = some (.file mode (content ++ bytes)) := by
  unfold extend
  rw [hf]
  exact edits_put (ordinary_file hf) (by simp) (by simp)

/-- Writing to a file puts all bytes behind its content, or fails and puts a start of them there. -/
theorem write_file {mode : Nat} {content bytes : ByteArray} {res : Except SystemError Unit}
    (hf : d.get? loc = some (.file mode content)) (h : d.write loc bytes = (res, d')) :
    d.Edits [loc] d' ∧
      ((res = .ok () ∧ d'.get? loc = some (.file mode (content ++ bytes))) ∨
        ∃ e n, res = .error e ∧
          d'.get? loc = some (.file mode (content ++ bytes.extract 0 n))) := by
  unfold write at h
  split at h
  · rename_i hempty
    cases h
    have hempty : bytes = .empty := ByteArray.size_eq_zero_iff.mp (beq_iff_eq.mp hempty)
    exact ⟨(Edits.refl d).of_nil, Or.inl ⟨rfl, by rw [hempty, ByteArray.append_empty, hf]⟩⟩
  have hlater : d.Edits [loc] d.later := d.edits_later
  rcases d.draw_cases with ⟨fault, hd, -⟩ | hd
  · rw [hd] at h
    cases h
    obtain ⟨he, hget⟩ := extend_file (d := d.later) hf (bytes.extract 0 fault.written)
    exact ⟨hlater.trans he, Or.inr ⟨_, _, rfl, hget⟩⟩
  · rw [hd] at h
    simp only [get?_later, hf, Prod.mk.injEq] at h
    obtain ⟨rfl, rfl⟩ := h
    obtain ⟨he, hget⟩ := extend_file (d := d.later) hf bytes
    exact ⟨hlater.trans he, Or.inl ⟨rfl, hget⟩⟩

/-- Writing to what is no file changes nothing. -/
theorem write_other (hf : ∀ mode content, d.get? loc ≠ some (.file mode content))
    (bytes : ByteArray) : d.Edits [] (d.write loc bytes).2 := by
  have hextend : ∀ bytes, d.later.extend loc bytes = d.later := fun bytes => by
    unfold extend
    split
    · exact absurd ‹_› (hf _ _)
    · rfl
  unfold write
  split
  · exact Edits.refl d
  rcases d.draw_cases with ⟨fault, hd, -⟩ | hd
  · rw [hd]
    simp only [hextend]
    exact d.edits_later
  · rw [hd]
    dsimp only
    split
    · exact d.edits_later
    · rw [hextend]
      exact d.edits_later

/-- Writing changes no more than the open file. -/
theorem write_edits (d : Disk) (loc : Location) (bytes : ByteArray) :
    d.Edits [loc] (d.write loc bytes).2 := by
  by_cases hf : ∃ mode content, d.get? loc = some (.file mode content)
  · obtain ⟨mode, content, hf⟩ := hf
    exact (write_file hf rfl).1
  · exact (write_other (fun mode content he => hf ⟨mode, content, he⟩) bytes).of_nil

theorem write_ok (hq : d.faults = []) (hdev : d.get? loc ≠ some .fullDevice) (bytes : ByteArray) :
    (d.write loc bytes).1 = .ok () := by
  unfold write
  split
  · rfl
  · simp only [draw, hq]

theorem setLength_file {mode : Nat} {content : ByteArray} {length : Nat}
    {res : Except SystemError Unit} (hf : d.get? loc = some (.file mode content))
    (h : d.setLength loc length = (res, d')) :
    ((∃ e, res = .error e) ∧ d.Edits [] d') ∨
      res = .ok () ∧ d.Edits [loc] d' ∧
        d'.get? loc = some (.file mode (resized content length)) := by
  unfold setLength at h
  rcases d.attempt_cases _ with ⟨e, ha⟩ | ha
  · rw [ha] at h
    cases h
    exact Or.inl ⟨⟨e, rfl⟩, d.edits_later⟩
  rw [ha] at h
  simp only [get?_later, hf, Prod.mk.injEq] at h
  obtain ⟨rfl, rfl⟩ := h
  obtain ⟨he, hget⟩ := edits_put (d := d.later) (ordinary_file hf)
    (e := .file mode (resized content length)) (by simp) (by simp)
  exact Or.inr ⟨rfl, d.edits_later.trans he, hget⟩

theorem setLength_edits (d : Disk) (loc : Location) (length : Nat) :
    d.Edits [loc] (d.setLength loc length).2 := by
  by_cases hf : ∃ mode content, d.get? loc = some (.file mode content)
  · obtain ⟨mode, content, hf⟩ := hf
    rcases setLength_file hf rfl with ⟨-, he⟩ | ⟨-, he, -⟩
    · exact he.of_nil
    · exact he
  unfold setLength
  rcases d.attempt_cases _ with ⟨e, ha⟩ | ha
  · rw [ha]
    exact d.edits_later
  rw [ha]
  split
  · rename_i hget
    exact absurd ⟨_, _, hget⟩ hf
  · exact d.edits_later

/-- A length up to that of the content cuts it. -/
theorem resized_of_le {content : ByteArray} {length : Nat} (h : length ≤ content.size) :
    resized content length = content.extract 0 length := by
  unfold resized
  rw [Nat.sub_eq_zero_of_le h]
  simp

/-! ### Reading -/

theorem read_cases {res : Except SystemError ByteArray} (h : d.read p = (res, d')) :
    d.Edits [] d' ∧ ((∃ e, res = .error e) ∨
      ∃ place mode content, d.resolve .followed p = .ok place ∧
        d.get? place.location = some (.file mode content) ∧ res = .ok content) := by
  unfold read at h
  rcases d.attempt_cases _ with ⟨e, ha⟩ | ha
  · rw [ha] at h
    cases h
    exact ⟨d.edits_later, Or.inl ⟨e, rfl⟩⟩
  rw [ha] at h
  split at h
  · cases h
    exact ⟨d.edits_later, Or.inl ⟨_, rfl⟩⟩
  rename_i place hr
  have hplace := resolve_later.mp hr
  split at h
  · cases h
    exact ⟨d.edits_later, Or.inl ⟨_, rfl⟩⟩
  · cases h
    exact ⟨d.edits_later, Or.inl ⟨_, rfl⟩⟩
  · rename_i mode content hget
    split at h
    · cases h
      exact ⟨d.edits_later, Or.inl ⟨_, rfl⟩⟩
    · cases h
      exact ⟨d.edits_later, Or.inr ⟨place, mode, content, hplace, hget, rfl⟩⟩
  · split at h
    all_goals
      cases h
      exact ⟨d.edits_later, Or.inl ⟨_, rfl⟩⟩
  · cases h
    exact ⟨d.edits_later, Or.inl ⟨_, rfl⟩⟩

theorem read_ok {place : Place} {mode : Nat} {content : ByteArray} (hq : d.faults = [])
    (hr : d.resolve .followed p = .ok place) (hw : place.wantsFolder = false)
    (hf : d.get? place.location = some (.file mode content)) : (d.read p).1 = .ok content := by
  rw [read, attempt_quiet hq, hr]
  simp [hf, hw]

/-! ### Taking away and moving -/

/-- What is taken away is no folder. -/
theorem remove_takes {res : Except SystemError Unit} (h : d.remove p = (res, d')) :
    ((∃ e, res = .error e) ∧ d' = d.later) ∨
      ∃ place e, res = .ok () ∧ d.resolve .kept p = .ok place ∧ d.lookAt place = .ok (some e) ∧
        e ≠ .folder ∧ d' = d.later.erase place.location := by
  unfold remove at h
  rcases d.attempt_cases _ with ⟨e, hcall⟩ | hcall
  · rw [hcall] at h
    cases h
    exact Or.inl ⟨⟨e, rfl⟩, rfl⟩
  rw [hcall] at h
  split at h
  · cases h
    exact Or.inl ⟨⟨_, rfl⟩, rfl⟩
  rename_i place hr
  split at h
  · cases h
    exact Or.inl ⟨⟨_, rfl⟩, rfl⟩
  · cases h
    exact Or.inl ⟨⟨_, rfl⟩, rfl⟩
  · cases h
    exact Or.inl ⟨⟨_, rfl⟩, rfl⟩
  rename_i e hfolder hlook
  split at h
  · cases h
    exact Or.inl ⟨⟨_, rfl⟩, rfl⟩
  · cases h
    exact Or.inr ⟨place, e, rfl, resolve_later.mp hr, hlook, hfolder, rfl⟩

theorem remove_cases {res : Except SystemError Unit} (ha : d.Aims p loc)
    (h : d.remove p = (res, d')) :
    ((∃ e, res = .error e) ∧ d.Edits [] d') ∨
      res = .ok () ∧ d.Edits [loc] d' ∧ d'.get? loc = none ∧ d.get? loc ≠ none := by
  rcases remove_takes h with ⟨herror, rfl⟩ | ⟨place, e, rfl, hr, hlook, hfolder, rfl⟩
  · exact Or.inl ⟨herror, d.edits_later⟩
  have hget := lookAt_ok hlook
  rw [ha.location hr] at hget ⊢
  have hord : d.later.Ordinary loc :=
    ⟨fun hf => hfolder (Option.some.inj (hget.symm.trans hf)), (ha _ _ hr).2⟩
  obtain ⟨he, hnone⟩ := edits_erase hord
  exact Or.inr ⟨rfl, d.edits_later.trans he, hnone, by rw [hget]; simp⟩

theorem remove_edits (d : Disk) (ha : d.Aims p loc) : d.Edits [loc] (d.remove p).2 := by
  rcases h : d.remove p with ⟨res, removed⟩
  rcases remove_cases ha h with ⟨-, hedit⟩ | ⟨-, hedit, -⟩
  · exact hedit.of_nil
  · exact hedit

/-- Nothing comes up by being taken away. -/
theorem remove_none {place : Location} (ha : d.Aims p loc) (hnone : d.get? place = none) :
    (d.remove p).2.get? place = none := by
  rcases h : d.remove p with ⟨res, removed⟩
  rcases remove_cases ha h with ⟨-, hedit⟩ | ⟨-, hedit, hgone, -⟩
  · rwa [hedit.get?_of_nil]
  · by_cases hsame : place = loc
    · rwa [hsame]
    · rwa [hedit.get?_eq (by simpa using hsame)]

theorem remove_ok {folder : Location} {name : String} (hq : d.faults = [])
    (hl : d.Leads p folder name) (ho : d.Ordinary (folder ++ [name])) :
    (d.remove p).1 = if d.get? (folder ++ [name]) = none then .error .noEntry else .ok () := by
  rw [remove, attempt_quiet hq, hl.resolve]
  simp only [lookAt, lookUp_of_le hl.fits]
  match hget : d.get? (folder ++ [name]) with
  | none => simp
  | some .folder => exact absurd hget ho.1
  | some (.file _ _) => simp
  | some (.link target) => exact absurd hget (ho.2 target)
  | some .fullDevice => simp

/-- What is moved is no folder, and neither is what it takes the place of. -/
theorem rename_moves {old new : Path} {res : Except SystemError Unit}
    (h : d.rename old new = (res, d')) :
    ((∃ e, res = .error e) ∧ d' = d.later) ∨
      ∃ source target e there, res = .ok () ∧ d.resolve .kept old = .ok source ∧
        d.resolve .kept new = .ok target ∧ d.lookAt source = .ok (some e) ∧ e ≠ .folder ∧
        d.lookAt target = .ok there ∧ there ≠ some .folder ∧
        d' = (d.later.erase source.location).put target.location e := by
  unfold rename at h
  rcases d.attempt_cases _ with ⟨e, hcall⟩ | hcall
  · rw [hcall] at h
    cases h
    exact Or.inl ⟨⟨e, rfl⟩, rfl⟩
  rw [hcall] at h
  split at h
  · cases h
    exact Or.inl ⟨⟨_, rfl⟩, rfl⟩
  · cases h
    exact Or.inl ⟨⟨_, rfl⟩, rfl⟩
  rename_i source target hsource htarget
  split at h
  · cases h
    exact Or.inl ⟨⟨_, rfl⟩, rfl⟩
  split at h
  · cases h
    exact Or.inl ⟨⟨_, rfl⟩, rfl⟩
  split at h
  · cases h
    exact Or.inl ⟨⟨_, rfl⟩, rfl⟩
  · cases h
    exact Or.inl ⟨⟨_, rfl⟩, rfl⟩
  · cases h
    exact Or.inl ⟨⟨_, rfl⟩, rfl⟩
  · cases h
    exact Or.inl ⟨⟨_, rfl⟩, rfl⟩
  rename_i e there hfolder hlooks hlookt
  split at h
  · cases h
    exact Or.inl ⟨⟨_, rfl⟩, rfl⟩
  split at h
  · cases h
    exact Or.inl ⟨⟨_, rfl⟩, rfl⟩
  rename_i hthere
  cases h
  exact Or.inr ⟨source, target, e, there, rfl, resolve_later.mp hsource, resolve_later.mp htarget,
    hlooks, hfolder, hlookt, hthere, rfl⟩

/-- Moving changes no more than the two entries. -/
theorem rename_edits {old new : Path} {source target : Location} (hs : d.Aims old source)
    (ht : d.Aims new target) : d.Edits [source, target] (d.rename old new).2 := by
  rcases h : d.rename old new with ⟨res, d'⟩
  rcases rename_moves h with ⟨-, rfl⟩ |
    ⟨from_, to_, e, there, -, hrs, hrt, hlooks, hfolder, hlookt, hthere, rfl⟩
  · exact d.edits_later
  have hgets := lookAt_ok hlooks
  have hgett := lookAt_ok hlookt
  rw [hs.location hrs] at hgets
  rw [ht.location hrt] at hgett
  have hords : d.Ordinary source :=
    ⟨fun hf => hfolder (Option.some.inj (hgets.symm.trans hf)), (hs _ _ hrs).2⟩
  have hordt : d.Ordinary target := ⟨fun hf => hthere (hgett.symm.trans hf), (ht _ _ hrt).2⟩
  obtain ⟨hedit, -⟩ := edits_erase (d := d.later) hords
  obtain ⟨hedit', -⟩ := edits_put (e := e) (Ordinary.edits (d := d.later) hordt hedit) hfolder
    fun t he => hords.2 t (by rw [hgets, he])
  rw [hs.location hrs, ht.location hrt]
  exact d.edits_later.trans ((hedit.mono (by simp)).trans (hedit'.mono (by simp)))

/-- Moving puts what stands at the one location at the other. -/
theorem rename_cases {old new : Path} {source target : Location} {res : Except SystemError Unit}
    (hs : d.Aims old source) (ht : d.Aims new target) (hne : source ≠ target)
    (h : d.rename old new = (res, d')) :
    ((∃ e, res = .error e) ∧ d.Edits [] d') ∨
      res = .ok () ∧ d.Edits [source, target] d' ∧ d'.get? source = none ∧
        d'.get? target = d.get? source ∧ d.get? source ≠ none ∧ d'.Reaches new target := by
  have hedits := rename_edits hs ht
  rw [h] at hedits
  rcases rename_moves h with ⟨herror, rfl⟩ |
    ⟨from_, to_, e, there, rfl, hrs, hrt, hlooks, hfolder, hlookt, hthere, rfl⟩
  · exact Or.inl ⟨herror, d.edits_later⟩
  have hgets := lookAt_ok hlooks
  have hgett := lookAt_ok hlookt
  rw [hs.location hrs] at hgets hedits ⊢
  rw [ht.location hrt] at hgett hedits ⊢
  have hnes := ne_nil_of_not_folder fun hf => hfolder (Option.some.inj (hgets.symm.trans hf))
  have hnet := ne_nil_of_not_folder fun hf => hthere (hgett.symm.trans hf)
  refine Or.inr ⟨rfl, hedits, ?_, ?_, by rw [hgets]; simp, ?_⟩
  · rw [get?_put, if_neg hnes, if_neg hne.symm, get?_erase, if_neg hnes, if_pos rfl]
  · rw [get?_put, if_neg hnet, if_pos rfl, hgets]
  · obtain ⟨⟨folder, name, rfl, hloc⟩, -⟩ := ht _ _ hrt
    exact ⟨folder, name, hloc, hedits.resolve.mpr hrt, (lookUp_ok hlookt).1⟩

theorem rename_ok {old new : Path} {folder : Location} {source target : String}
    (hq : d.faults = []) (hs : d.Leads old folder source) (ht : d.Leads new folder target)
    (hords : d.Ordinary (folder ++ [source])) (hthere : d.get? (folder ++ [source]) ≠ none)
    (hordt : d.Ordinary (folder ++ [target])) : (d.rename old new).1 = .ok () := by
  obtain ⟨e, hget⟩ := Option.ne_none_iff_exists'.mp hthere
  have hfolder : e ≠ .folder := fun he => hords.1 (he ▸ hget)
  rw [rename, attempt_quiet hq, hs.resolve, ht.resolve]
  simp only [amongDevices, bne_self_eq_false, isNamed, lookAt, lookUp_of_le hs.fits,
    lookUp_of_le ht.fits, hget, Bool.and_self, Bool.not_true, Bool.false_eq_true, if_false,
    Bool.or_self]
  split
  · exact absurd ‹_› hordt.1
  · rfl

end Disk
end FileReceiver
