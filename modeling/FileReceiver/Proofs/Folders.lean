/-
# Entries of a folder

Where the entries of a folder are does not depend on which entry is meant: a
path to a plain name in a folder leads to the location of the folder and then
to the name (`resolve_join`), and only a link in the place of the name can
change that. So all paths of one folder lead to one location, for as long as
the folders and links on the way stay (`folderAt_mono`).

Key definitions: `Disk.enter`, `Disk.folderAt`, `Disk.Keeps`.
Key theorems: `Disk.walk_name`, `Disk.resolve_join`, `Disk.folderAt_mono`.
-/
import FileReceiver.Disk.Calls
import FileReceiver.Proofs.Paths

namespace FileReceiver
namespace Disk

open FileName (IsPlain)

/-- Follows steps all of which have to lead to folders. `onLink` goes on with the steps that a link
adds and those left, from another folder. -/
def enterWith (d : Disk) (onLink : List Component → Location → Except SystemError Location) :
    List Component → Location → Except SystemError Location
  | [], folder => .ok folder
  | .root :: rest, _ => enterWith d onLink rest []
  | .here :: rest, folder => enterWith d onLink rest folder
  | .up :: rest, folder => enterWith d onLink rest folder.dropLast
  | .name s :: rest, folder =>
    match d.lookUp folder s with
    | .error e => .error e
    | .ok (some (.link target)) => onLink (stepsOf target ++ rest) (startOf target folder)
    | .ok (some .folder) => enterWith d onLink rest (folder ++ [s])
    | .ok (some _) => .error .notFolder
    | .ok none => .error .noEntry

/-- Follows steps all of which have to lead to folders, through at most `links` links. -/
def enter (d : Disk) : (links : Nat) → List Component → Location → Except SystemError Location
  | 0 => enterWith d fun _ _ => .error .tooManyLinks
  | links + 1 => enterWith d (enter d links)

/-- The location of the folder in which the entries of a path stand. -/
def folderAt (d : Disk) (folder : Path) : Except SystemError Location :=
  d.enter linkLimit (stepsOf folder.text) (startOf folder.text d.workingFolder)

/-- What the last name of a path leads to in its folder, if it is no link. -/
def lastIn (d : Disk) (lastName : LastName) (name : String) (folder : Location) :
    Except SystemError Place :=
  if lastName = .kept then .ok ⟨folder, .name name, false⟩
  else (d.lookUp folder name).map fun _ => ⟨folder, .name name, false⟩

/-- No link stands for the name in the folder, as far as there is one. -/
def NoLink (d : Disk) (name : String) (folder : Except SystemError Location) : Prop :=
  ∀ loc target, folder = .ok loc → d.get? (loc ++ [name]) ≠ some (.link target)

variable {d : Disk}

/-- A name that does not stand for a link is the last step. -/
theorem walkWith_last {lastName : LastName} {name : String}
    {onLink : Bool → List Component → Location → Except SystemError Place} {folder : Location}
    (h : lastName = .kept ∨ d.NoLink name (.ok folder)) :
    d.walkWith lastName onLink false [.name name] folder = d.lastIn lastName name folder := by
  unfold walkWith lastIn
  by_cases hkept : lastName = .kept
  · rw [if_pos hkept, if_pos hkept]
  rw [if_neg hkept, if_neg hkept]
  have hlink := h.resolve_left hkept
  simp only [Bool.and_false, Bool.false_eq_true, if_false]
  cases hlook : d.lookUp folder name with
  | error e => rfl
  | ok there =>
    have hget : d.get? (folder ++ [name]) = there := by
      unfold lookUp at hlook
      split at hlook
      · cases hlook
      · exact Except.ok.inj hlook
    match there, hget with
    | none, _ => rfl
    | some .folder, _ => rfl
    | some (.file _ _), _ => rfl
    | some .fullDevice, _ => rfl
    | some (.link target), hget => exact absurd hget (hlink folder target rfl)

theorem walkWith_name {lastName : LastName} {name : String}
    {onLink : Bool → List Component → Location → Except SystemError Place}
    {enterLink : List Component → Location → Except SystemError Location}
    (hon : ∀ steps folder, (lastName = .kept ∨ d.NoLink name (enterLink steps folder)) →
      onLink false (steps ++ [.name name]) folder =
        (enterLink steps folder).bind (d.lastIn lastName name)) :
    ∀ (steps : List Component) (folder : Location),
      (lastName = .kept ∨ d.NoLink name (d.enterWith enterLink steps folder)) →
      d.walkWith lastName onLink false (steps ++ [.name name]) folder =
        (d.enterWith enterLink steps folder).bind (d.lastIn lastName name)
  | [], folder, h => walkWith_last h
  | step :: rest, folder, h => by
    have ih := walkWith_name hon rest
    obtain ⟨next, more, hmore⟩ : ∃ next more, rest ++ [Component.name name] = next :: more :=
      List.exists_cons_of_ne_nil (by simp)
    rw [List.cons_append]
    cases step with
    | root =>
      rw [hmore, walkWith, ← hmore]
      · exact ih [] h
      all_goals simp
    | here =>
      rw [hmore, walkWith, ← hmore]
      · exact ih folder h
      all_goals simp
    | up =>
      rw [hmore, walkWith, ← hmore]
      · exact ih folder.dropLast h
      all_goals simp
    | name s =>
      unfold enterWith at h ⊢
      rw [hmore, walkWith, ← hmore]
      · cases hlook : d.lookUp folder s with
        | error e => rfl
        | ok there =>
          rw [hlook] at h
          match there, h with
          | none, _ => rfl
          | some .folder, h => exact ih (folder ++ [s]) h
          | some (.file _ _), _ => rfl
          | some .fullDevice, _ => rfl
          | some (.link target), h =>
            simp only [← List.append_assoc]
            exact hon (stepsOf target ++ rest) (startOf target folder) h
      all_goals simp

/-- A path that ends in a name leads to the folder of the steps before it, and then to the name. -/
theorem walk_name {lastName : LastName} {name : String} (links : Nat) :
    ∀ (steps : List Component) (folder : Location),
      (lastName = .kept ∨ d.NoLink name (d.enter links steps folder)) →
      d.walk lastName links false (steps ++ [.name name]) folder =
        (d.enter links steps folder).bind (d.lastIn lastName name) := by
  induction links with
  | zero => exact walkWith_name fun _ _ _ => rfl
  | succ links ih => exact walkWith_name ih

/-- **One folder, one location.** Where the path of an entry leads, for every kind of call. -/
theorem resolve_join {lastName : LastName} {folder : Path} {name : String}
    (h : IsPlain name.toList) (hlink : lastName = .kept ∨ d.NoLink name (d.folderAt folder)) :
    d.resolve lastName (folder.join name) =
      if (folder.join name).text.toList.contains '\x00' then .error .zeroByteInPath
      else if pathLimit < (folder.join name).text.utf8ByteSize then .error .nameTooLong
      else (d.folderAt folder).bind (d.lastIn lastName name) := by
  unfold resolve
  rw [if_neg (Path.join_text_ne folder h), Path.stepsOf_join folder h, Path.startOf_join folder h,
    Path.endsInSeparator_join folder h, walk_name linkLimit _ _ hlink]
  rfl

/-! ### What stays when other entries change -/

/-- The folders of a disk are folders of another, and the links of both are the same. -/
structure Keeps (d d' : Disk) : Prop where
  workingFolder : d'.workingFolder = d.workingFolder
  folder : ∀ loc, d.get? loc = some .folder → d'.get? loc = some .folder
  link : ∀ loc target, d'.get? loc = some (.link target) ↔ d.get? loc = some (.link target)

theorem lookUp_ok {folder : Location} {name : String} {there : Option Entry}
    (h : d.lookUp folder name = .ok there) :
    name.utf8ByteSize ≤ nameLimit ∧ d.get? (folder ++ [name]) = there := by
  unfold lookUp at h
  split at h
  · cases h
  · rename_i hlen
    exact ⟨Nat.le_of_not_lt hlen, Except.ok.inj h⟩

theorem lookUp_of_le {name : String} (h : name.utf8ByteSize ≤ nameLimit) (folder : Location) :
    d.lookUp folder name = .ok (d.get? (folder ++ [name])) := by
  rw [lookUp, if_neg (Nat.not_lt_of_le h)]

variable {d' : Disk}

theorem Keeps.lookUp_folder (hk : d.Keeps d') {folder : Location} {name : String}
    (h : d.lookUp folder name = .ok (some .folder)) :
    d'.lookUp folder name = .ok (some .folder) := by
  obtain ⟨hlen, hget⟩ := lookUp_ok h
  rw [lookUp_of_le hlen, hk.folder _ hget]

theorem Keeps.lookUp_link (hk : d.Keeps d') {folder : Location} {name target : String}
    (h : d.lookUp folder name = .ok (some (.link target))) :
    d'.lookUp folder name = .ok (some (.link target)) := by
  obtain ⟨hlen, hget⟩ := lookUp_ok h
  rw [lookUp_of_le hlen, (hk.link _ _).mpr hget]

/-- A name that is no link stays none. -/
theorem Keeps.lookUp_other (hk : d.Keeps d') {folder : Location} {name : String}
    {there : Option Entry} (h : d.lookUp folder name = .ok there)
    (hlink : ∀ target, there ≠ some (.link target)) :
    ∃ there', d'.lookUp folder name = .ok there' ∧ ∀ target, there' ≠ some (.link target) := by
  obtain ⟨hlen, hget⟩ := lookUp_ok h
  refine ⟨_, lookUp_of_le hlen folder, fun target ht => hlink target ?_⟩
  rw [← hget]
  exact (hk.link _ _).mp ht

/-- A walk that ends on a disk ends in the same place on a disk that keeps its folders and links. -/
theorem walkWith_mono (hk : d.Keeps d') {lastName : LastName}
    {onLink onLink' : Bool → List Component → Location → Except SystemError Place}
    (hon : ∀ w steps folder place, onLink w steps folder = .ok place →
      onLink' w steps folder = .ok place) (w : Bool) (steps : List Component) (folder : Location)
    (place : Place) (h : d.walkWith lastName onLink w steps folder = .ok place) :
    d'.walkWith lastName onLink' w steps folder = .ok place := by
  fun_induction walkWith d lastName onLink w steps folder with
  | case1 => exact h
  | case2 name folder hkept => rwa [walkWith, if_pos hkept]
  | case3 | case4 => cases h
  | case5 name folder hkept hmade target hlook =>
    rw [walkWith, if_neg hkept, if_neg hmade, hk.lookUp_link hlook]
    exact hon _ _ _ _ h
  | case6 name folder hkept hmade there hlink hlook =>
    obtain ⟨there', hlook', hlink'⟩ := hk.lookUp_other hlook hlink
    rw [walkWith, if_neg hkept, if_neg hmade, hlook']
    split
    · rename_i heq
      cases heq
    · rename_i target heq
      cases heq
      exact absurd rfl (hlink' target)
    · exact h
  | case7 last folder hname => rwa [walkWith]; exact hname
  | case8 rest folder hrest ih | case9 rest folder hrest ih | case10 rest folder hrest ih =>
    rw [walkWith]
    · exact ih h
    · exact hrest
  | case11 => cases h
  | case12 name rest folder hrest target hlook =>
    rw [walkWith, hk.lookUp_link hlook]
    · exact hon _ _ _ _ h
    · exact hrest
  | case13 name rest folder hrest hlook ih =>
    rw [walkWith, hk.lookUp_folder hlook]
    · exact ih h
    · exact hrest
  | case14 | case15 => cases h

theorem walk_mono (hk : d.Keeps d') {lastName : LastName} (links : Nat) :
    ∀ w steps folder place, d.walk lastName links w steps folder = .ok place →
      d'.walk lastName links w steps folder = .ok place := by
  induction links with
  | zero => exact walkWith_mono hk fun _ _ _ _ h => by cases h
  | succ links ih => exact walkWith_mono hk ih

/-- **Paths stay.** A path leads to the same place as long as the folders and links stay. -/
theorem resolve_mono (hk : d.Keeps d') {lastName : LastName} {p : Path} {place : Place}
    (h : d.resolve lastName p = .ok place) : d'.resolve lastName p = .ok place := by
  unfold resolve at h ⊢
  rw [hk.workingFolder]
  split at h
  · cases h
  rename_i hzero
  split at h
  · cases h
  rename_i hempty
  split at h
  · cases h
  rename_i hlen
  rw [if_neg hzero, if_neg hempty, if_neg hlen]
  exact walk_mono hk linkLimit _ _ _ _ h

theorem enterWith_mono (hk : d.Keeps d')
    {onLink onLink' : List Component → Location → Except SystemError Location}
    (hon : ∀ steps folder loc, onLink steps folder = .ok loc → onLink' steps folder = .ok loc)
    (steps : List Component) (folder loc : Location)
    (h : d.enterWith onLink steps folder = .ok loc) :
    d'.enterWith onLink' steps folder = .ok loc := by
  fun_induction enterWith d onLink steps folder with
  | case1 => exact h
  | case2 rest folder ih => rw [enterWith]; exact ih h
  | case3 rest folder ih => rw [enterWith]; exact ih h
  | case4 rest folder ih => rw [enterWith]; exact ih h
  | case5 => cases h
  | case6 name rest folder target hlook =>
    rw [enterWith, hk.lookUp_link hlook]
    exact hon _ _ _ h
  | case7 name rest folder hlook ih =>
    rw [enterWith, hk.lookUp_folder hlook]
    exact ih h
  | case8 | case9 => cases h

/-- The entries of a folder stay where they are as long as the folders and links stay. -/
theorem folderAt_mono (hk : d.Keeps d') {folder : Path} {loc : Location}
    (h : d.folderAt folder = .ok loc) : d'.folderAt folder = .ok loc := by
  have henter : ∀ links steps start loc, d.enter links steps start = .ok loc →
      d'.enter links steps start = .ok loc := by
    intro links
    induction links with
    | zero => exact enterWith_mono hk fun _ _ _ h => by cases h
    | succ links ih => exact enterWith_mono hk ih
  unfold folderAt at h ⊢
  rw [hk.workingFolder]
  exact henter linkLimit _ _ _ h

theorem lookUp_congr (hg : ∀ loc, d'.get? loc = d.get? loc) (folder : Location) (name : String) :
    d'.lookUp folder name = d.lookUp folder name := by
  rw [lookUp, lookUp, hg]

theorem enterWith_congr (hg : ∀ loc, d'.get? loc = d.get? loc)
    {onLink onLink' : List Component → Location → Except SystemError Location}
    (hon : ∀ steps folder, onLink' steps folder = onLink steps folder) (steps : List Component)
    (folder : Location) :
    d'.enterWith onLink' steps folder = d.enterWith onLink steps folder := by
  fun_induction enterWith d onLink steps folder with
  | case1 => rfl
  | case2 rest folder ih | case3 rest folder ih | case4 rest folder ih =>
    rw [enterWith]
    exact ih
  | case6 name rest folder target hlook =>
    rw [enterWith, lookUp_congr hg, hlook]
    exact hon _ _
  | case7 name rest folder hlook ih =>
    rw [enterWith, lookUp_congr hg, hlook]
    exact ih
  | case5 name rest folder e hlook | case9 name rest folder hlook =>
    rw [enterWith, lookUp_congr hg, hlook]
  | case8 name rest folder e hlink hfolder hlook =>
    rw [enterWith, lookUp_congr hg, hlook]
    split <;> simp_all

/-- Where the entries of a folder are, or why they are nowhere, hangs on what stands on the disk
and nothing else. -/
theorem folderAt_congr (hw : d'.workingFolder = d.workingFolder)
    (hg : ∀ loc, d'.get? loc = d.get? loc) (folder : Path) :
    d'.folderAt folder = d.folderAt folder := by
  have henter : ∀ links steps start, d'.enter links steps start = d.enter links steps start := by
    intro links
    induction links with
    | zero => exact enterWith_congr hg fun _ _ => rfl
    | succ links ih => exact enterWith_congr hg ih
  unfold folderAt
  rw [hw]
  exact henter linkLimit _ _

end Disk
end FileReceiver
