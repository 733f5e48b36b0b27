/-
# What cancelling takes away

Cancelling a session goes through its files and takes away what is staged of
those that are not complete, whatever it is, unless it is a folder. The files
for which that succeeds (`Session.gone`) are counted, and the disk is the one
before without their entries (`Disk.Takes`).

An entry that is taken away may be a link, and the folder for received files
may be found through it. Then the files behind it are still there, but their
paths lead nowhere any more, and whether a staging file is taken away depends
on whether its turn comes before the link's. As long as the folder is found
afterwards, no order is better than another (`Session.Unordered`).

Key definitions: `Disk.Loose`, `Disk.Takes`, `Session.gone`,
`Session.Unordered`, `Session.Cleared`.
Key theorems: `Session.takes_gone`, `Session.gone_iff`,
`Session.Tidy.unordered`, `Receiver.cancel_clears`.
-/
import FileReceiver.Proofs.Destination

namespace FileReceiver

open Disk (Sheds)

variable {d d' : Disk} {p folder : Path} {loc : Location} {name : String} {t u : Transfer}

/-! ### One entry -/

namespace Disk

/-- A path leads to an entry at a location, which is no folder. -/
structure Loose (d : Disk) (p : Path) (loc : Location) : Prop where
  reaches : d.Reaches p loc
  stands : ∃ e, d.get? loc = some e ∧ e ≠ .folder

/-- Where a path leads, a link at its end not followed. -/
def place? (d : Disk) (p : Path) : Option Location :=
  match d.resolve .kept p with
  | .ok place => some place.location
  | .error _ => none

theorem Reaches.place? (h : d.Reaches p loc) : d.place? p = some loc := by
  obtain ⟨folder, name, rfl, hr, -⟩ := h
  rw [Disk.place?, hr]
  rfl

/-- The path of an entry reaches the name in the folder, if the folder is found and neither the path
nor the name is too long. -/
theorem reaches_join_iff (h : FileName.IsPlain name.toList) :
    d.Reaches (folder.join name) loc ↔
      (∃ found, d.folderAt folder = .ok found ∧ loc = found ++ [name]) ∧
        ¬ (folder.join name).text.toList.contains '\x00' ∧
        ¬ pathLimit < (folder.join name).text.utf8ByteSize ∧ name.utf8ByteSize ≤ nameLimit := by
  have hresolve : d.resolve .kept (folder.join name) = _ := resolve_join h (Or.inl rfl)
  constructor
  · rintro ⟨found, last, rfl, hr, hlen⟩
    obtain ⟨other, hother, hplace⟩ := resolve_join_ok h (Or.inl rfl) hr
    cases hplace
    rw [hresolve] at hr
    split at hr
    · cases hr
    rename_i hzero
    split at hr
    · cases hr
    rename_i hlong
    exact ⟨⟨found, hother, rfl⟩, hzero, hlong, hlen⟩
  · rintro ⟨⟨found, hfound, rfl⟩, hzero, hlong, hlen⟩
    refine ⟨found, name, rfl, ?_, hlen⟩
    rw [hresolve, if_neg hzero, if_neg hlong, hfound]
    rfl

/-- What is left has been there. -/
theorem Loose.back (h : FileName.IsPlain name.toList) (hs : d.Sheds d')
    (hloose : d'.Loose (folder.join name) loc) : d.Loose (folder.join name) loc := by
  obtain ⟨hreaches, e, hget, hfolder⟩ := hloose
  obtain ⟨⟨found, hfound, hloc⟩, hfits⟩ := (reaches_join_iff h).mp hreaches
  refine ⟨(reaches_join_iff h).mpr ⟨⟨found, folderAt_sheds hs hfound, hloc⟩, hfits⟩, e, ?_, hfolder⟩
  rcases hs.entry loc with hsame | hnone
  · rw [← hsame, hget]
  · rw [hnone] at hget
    cases hget

/-- What has not been taken away is still there, as long as its folder is found. -/
theorem Loose.stays (h : FileName.IsPlain name.toList)
    (hfound : ∀ found, d.folderAt folder = .ok found → d'.folderAt folder = .ok found)
    (hsame : d'.get? loc = d.get? loc) (hloose : d.Loose (folder.join name) loc) :
    d'.Loose (folder.join name) loc := by
  obtain ⟨hreaches, hstands⟩ := hloose
  obtain ⟨⟨found, hfolder, hloc⟩, hfits⟩ := (reaches_join_iff h).mp hreaches
  exact ⟨(reaches_join_iff h).mpr ⟨⟨found, hfound found hfolder, hloc⟩, hfits⟩, by rwa [hsame]⟩

/-- Two disks that hold the same have shed nothing. -/
theorem Same.sheds (h : d.Same d') : d.Sheds d' :=
  ⟨h.workingFolder, fun loc => Or.inl (h.entry loc)⟩

theorem Sheds.trans {d'' : Disk} (h : d.Sheds d') (h' : d'.Sheds d'') : d.Sheds d'' := by
  refine ⟨h'.workingFolder.trans h.workingFolder, fun loc => ?_⟩
  rcases h'.entry loc with hsame | hnone
  · rw [hsame]
    exact h.entry loc
  · exact Or.inr hnone

/-- **Removing takes away what is loose**, or nothing. -/
theorem remove_join_cases (h : FileName.IsPlain name.toList) (folder : Path) (d : Disk) :
    (∃ loc, d.Loose (folder.join name) loc ∧ d.draw = (none, d.later) ∧
        d.remove (folder.join name) = (.ok (), d.later.erase loc)) ∨
      (∃ e, d.remove (folder.join name) = (.error e, d.later)) ∧
        ((∃ fault, d.draw = (some fault, d.later)) ∨ ∀ loc, ¬ d.Loose (folder.join name) loc) := by
  rcases d.draw_cases with ⟨fault, hdraw, -⟩ | hdraw
  · exact Or.inr ⟨⟨fault.error, by simp [remove, attempt, hdraw]⟩, Or.inl ⟨fault, hdraw⟩⟩
  by_cases hloose : ∃ loc, d.Loose (folder.join name) loc
  · obtain ⟨loc, hloose⟩ := hloose
    obtain ⟨⟨found, last, rfl, hr, hlen⟩, e, hget, hfolder⟩ := id hloose
    refine Or.inl ⟨_, hloose, hdraw, ?_⟩
    have hlook : d.later.lookAt ⟨found, .name last, false⟩ = .ok (some e) := by
      change d.later.lookUp found last = _
      rw [lookUp_of_le hlen, get?_later, hget]
    simp only [remove, attempt, hdraw, resolve_later.mpr hr, hlook]
    cases e with
    | folder => exact absurd rfl hfolder
    | _ => rfl
  · refine Or.inr ⟨?_, Or.inr fun loc hl => hloose ⟨loc, hl⟩⟩
    rcases hremove : d.remove (folder.join name) with ⟨res, d'⟩
    rcases remove_takes hremove with ⟨⟨e, rfl⟩, rfl⟩ | ⟨place, e, -, hr, hlook, hfolder, -⟩
    · exact ⟨e, rfl⟩
    · obtain ⟨found, hfound, rfl⟩ := resolve_join_ok h (Or.inl rfl) hr
      obtain ⟨hlen, hget⟩ := lookUp_ok hlook
      exact absurd ⟨_, ⟨found, name, rfl, hr, hlen⟩, e, hget, hfolder⟩ hloose

/-- With nothing left to fail, what is loose is taken away. -/
theorem remove_facing_iff (h : FileName.IsPlain name.toList) (d : Disk) :
    ((d.facing []).remove (folder.join name)).1 = .ok () ↔
      ∃ loc, d.Loose (folder.join name) loc := by
  have hsame : d.Same (d.facing []) := ⟨rfl, fun _ => rfl⟩
  have hback : (d.facing []).Same d := ⟨rfl, fun _ => rfl⟩
  rcases remove_join_cases h folder (d.facing []) with
    ⟨loc, hloose, -, hremove⟩ | ⟨⟨e, hremove⟩, ⟨fault, hdraw⟩ | hnone⟩
  · rw [hremove]
    exact ⟨fun _ => ⟨loc, hloose.back h hsame.sheds⟩, fun _ => rfl⟩
  · cases hdraw
  · rw [hremove]
    exact ⟨nofun, fun ⟨loc, hloose⟩ => absurd (hloose.back h hback.sheds) (hnone loc)⟩

end Disk

/-! ### Entries at staging paths -/

/-- The entries at the staging paths of files are taken away, each from a place of its own, and
nothing else changes. -/
structure Disk.Takes (d : Disk) (gone : List Transfer) (d' : Disk) : Prop where
  loose : ∀ t ∈ gone, ∃ loc, d.Loose t.stagingPath loc
  apart : (gone.map fun t => d.place? t.stagingPath).Nodup
  workingFolder : d'.workingFolder = d.workingFolder
  entry : ∀ loc, d'.get? loc =
    if some loc ∈ gone.map (fun t => d.place? t.stagingPath) then none else d.get? loc

namespace Transfer

/-- Removing a staging file takes away what is loose, or nothing. -/
theorem LiesIn.remove_staging (h : t.LiesIn folder name) (d : Disk) :
    (∃ loc, d.Loose t.stagingPath loc ∧ d.draw = (none, d.later) ∧
        d.remove t.stagingPath = (.ok (), d.later.erase loc)) ∨
      (∃ e, d.remove t.stagingPath = (.error e, d.later)) ∧
        ((∃ fault, d.draw = (some fault, d.later)) ∨ ∀ loc, ¬ d.Loose t.stagingPath loc) := by
  rw [h.staging]
  exact Disk.remove_join_cases (FileName.plain_staged h.plain) folder d

theorem LiesIn.loose_back (h : t.LiesIn folder name) (hs : d.Sheds d')
    (hloose : d'.Loose t.stagingPath loc) : d.Loose t.stagingPath loc := by
  rw [h.staging] at hloose ⊢
  exact hloose.back (FileName.plain_staged h.plain) hs

theorem LiesIn.loose_stays (h : t.LiesIn folder name)
    (hfound : ∀ found, d.folderAt folder = .ok found → d'.folderAt folder = .ok found)
    (hsame : d'.get? loc = d.get? loc) (hloose : d.Loose t.stagingPath loc) :
    d'.Loose t.stagingPath loc := by
  rw [h.staging] at hloose ⊢
  exact hloose.stays (FileName.plain_staged h.plain) hfound hsame

theorem LiesIn.loose_iff_of_same (h : t.LiesIn folder name) (hs : d.Same d') :
    d'.Loose t.stagingPath loc ↔ d.Loose t.stagingPath loc :=
  ⟨h.loose_back hs.sheds,
    h.loose_back (Disk.Same.sheds ⟨hs.workingFolder.symm, fun loc => (hs.entry loc).symm⟩)⟩

/-- The place of a staging file is its name in the folder, where that is found. -/
theorem LiesIn.loose_at (h : t.LiesIn folder name) (hloose : d.Loose t.stagingPath loc) :
    ∃ found, d.folderAt folder = .ok found ∧ loc = found ++ [name ++ FileName.stagingSuffix] := by
  have hreaches := hloose.reaches
  rw [h.staging, Disk.reaches_join_iff (FileName.plain_staged h.plain)] at hreaches
  exact hreaches.1

/-- Files that stand apart have different places. -/
theorem LiesIn.loose_ne {other : String} {place : Location} (ht : t.LiesIn folder name)
    (hu : u.LiesIn folder other) (hapart : t.Apart u) (hloose : d.Loose t.stagingPath loc)
    (hloose' : d.Loose u.stagingPath place) : loc ≠ place := by
  rintro rfl
  obtain ⟨found, -, rfl⟩ := ht.loose_at hloose
  obtain ⟨found', -, heq⟩ := hu.loose_at hloose'
  have hnames := (List.append_inj' heq rfl).2
  refine hapart.stagings ?_
  rw [ht.staging, hu.staging, List.head_eq_of_cons_eq hnames]

end Transfer

namespace Disk

variable {gone rest : List Transfer}

theorem same_later (d : Disk) : d.Same d.later := ⟨rfl, fun _ => rfl⟩

theorem erase_later_sheds (d : Disk) (loc : Location) : d.Sheds (d.later.erase loc) :=
  d.same_later.sheds.trans (d.later.erase_sheds loc)

theorem Loose.ne_nil (h : d.Loose p loc) : loc ≠ [] := by
  obtain ⟨folder, name, rfl, -⟩ := h.reaches
  simp

theorem Loose.get?_erase (h : d.Loose p loc) (place : Location) :
    (d.later.erase loc).get? place = if place = loc then none else d.get? place := by
  rw [Disk.get?_erase, get?_later]
  by_cases hroot : place = []
  · rw [if_pos hroot, if_neg (hroot ▸ h.ne_nil.symm), hroot]
    rfl
  · rw [if_neg hroot]
    simp only [eq_comm]

theorem Takes.sheds (h : d.Takes gone d') : d.Sheds d' := by
  refine ⟨h.workingFolder, fun loc => ?_⟩
  rw [h.entry]
  split
  · exact Or.inr rfl
  · exact Or.inl rfl

theorem Takes.nil (d : Disk) : d.Takes [] d :=
  ⟨nofun, List.nodup_nil, rfl, fun _ => by simp⟩

/-- What is taken away of a disk that has shed entries was there before. -/
theorem Takes.back {before : Disk} (h : d.Takes gone d') (hs : before.Sheds d)
    (hlies : ∀ t ∈ gone, ∃ name, t.LiesIn folder name) :
    ∀ t ∈ gone, ∃ loc, d.Loose t.stagingPath loc ∧ before.Loose t.stagingPath loc := by
  intro t ht
  obtain ⟨loc, hloc⟩ := h.loose t ht
  obtain ⟨name, hname⟩ := hlies t ht
  exact ⟨loc, hloc, hname.loose_back hs hloc⟩

theorem Takes.places {before : Disk} (h : d.Takes gone d') (hs : before.Sheds d)
    (hlies : ∀ t ∈ gone, ∃ name, t.LiesIn folder name) :
    (gone.map fun t => d.place? t.stagingPath) =
      gone.map fun t => before.place? t.stagingPath := by
  refine List.map_congr_left fun t ht => ?_
  obtain ⟨loc, hafter, hbefore⟩ := h.back hs hlies t ht
  rw [hafter.reaches.place?, hbefore.reaches.place?]

theorem Takes.of_same {before : Disk} (hs : before.Same d) (h : d.Takes gone d')
    (hlies : ∀ t ∈ gone, ∃ name, t.LiesIn folder name) : before.Takes gone d' := by
  have hplaces := h.places hs.sheds hlies
  refine ⟨fun t ht => ?_, hplaces ▸ h.apart, h.workingFolder.trans hs.workingFolder, fun loc => ?_⟩
  · obtain ⟨loc, -, hloc⟩ := h.back hs.sheds hlies t ht
    exact ⟨loc, hloc⟩
  · rw [h.entry, hplaces, hs.entry]

/-- What is taken away next has another place. -/
theorem Takes.cons (hloose : d.Loose t.stagingPath loc) (h : (d.later.erase loc).Takes rest d')
    (hlies : ∀ u ∈ rest, ∃ name, u.LiesIn folder name) : d.Takes (t :: rest) d' := by
  have hback := h.back (d.erase_later_sheds loc) hlies
  have hplaces := h.places (d.erase_later_sheds loc) hlies
  refine ⟨?_, ?_, h.workingFolder, fun place => ?_⟩
  · intro u hu
    rcases List.mem_cons.mp hu with rfl | hu
    · exact ⟨loc, hloose⟩
    · obtain ⟨place, -, hplace⟩ := hback u hu
      exact ⟨place, hplace⟩
  · rw [List.map_cons, hloose.reaches.place?, List.nodup_cons]
    refine ⟨fun hmem => ?_, hplaces ▸ h.apart⟩
    obtain ⟨u, hu, heq⟩ := List.mem_map.mp hmem
    obtain ⟨place, hafter, hbefore⟩ := hback u hu
    rw [hbefore.reaches.place?, Option.some.injEq] at heq
    obtain ⟨e, he, -⟩ := hafter.stands
    rw [hloose.get?_erase, if_pos heq] at he
    cases he
  · rw [h.entry, hplaces, hloose.get?_erase]
    simp only [List.map_cons, hloose.reaches.place?, List.mem_cons, Option.some.injEq]
    by_cases hplace : place = loc
    · simp [hplace]
    · simp [hplace]

/-- Who takes away less leaves more. -/
theorem Takes.sheds_of_subset {gone' : List Transfer} {d'' : Disk} (h : d.Takes gone d')
    (h' : d.Takes gone' d'') (hsub : ∀ t ∈ gone, t ∈ gone') : d'.Sheds d'' := by
  refine ⟨h'.workingFolder.trans h.workingFolder.symm, fun loc => ?_⟩
  rw [h.entry, h'.entry]
  by_cases hmem : some loc ∈ gone'.map fun t => d.place? t.stagingPath
  · exact Or.inr (if_pos hmem)
  · have hnot : some loc ∉ gone.map fun t => d.place? t.stagingPath := fun hin =>
      hmem (List.map_subset _ (fun t ht => hsub t ht) hin)
    exact Or.inl (by rw [if_neg hmem, if_neg hnot])

/-- The same files, in any order, are as many, and leave the same. -/
theorem Takes.unique {gone' : List Transfer} {d'' : Disk} (h : d.Takes gone d')
    (h' : d.Takes gone' d'') (hiff : ∀ t, t ∈ gone' ↔ t ∈ gone) :
    gone'.length = gone.length ∧ d'.Same d'' := by
  have hplaces (place : Option Location) :
      place ∈ gone'.map (fun t => d.place? t.stagingPath) ↔
        place ∈ gone.map (fun t => d.place? t.stagingPath) := by
    simp only [List.mem_map, hiff]
  refine ⟨?_, h'.workingFolder.trans h.workingFolder.symm, fun loc => ?_⟩
  · have hperm := (List.perm_ext_iff_of_nodup h'.apart h.apart).mpr hplaces
    simpa using hperm.length_eq
  · rw [h.entry, h'.entry]
    simp only [hplaces]

/-- Only where a link is taken away is a folder found no more. -/
theorem Takes.folderAt (h : d.Takes gone d') (hlies : ∀ t ∈ gone, ∃ name, t.LiesIn folder name)
    (hlink : ∀ t ∈ gone, ∀ target, d.entryAt? t.stagingPath ≠ some (.link target)) :
    d'.folderAt folder = d.folderAt folder := by
  have hgone {loc : Location} (hmem : some loc ∈ gone.map fun t => d.place? t.stagingPath) :
      ∃ e, d.get? loc = some e ∧ e ≠ .folder ∧ ∀ target, e ≠ .link target := by
    obtain ⟨t, ht, hplace⟩ := List.mem_map.mp hmem
    obtain ⟨loc', hloose⟩ := h.loose t ht
    obtain ⟨e, hget, hfolder⟩ := hloose.stands
    rw [hloose.reaches.place?, Option.some.injEq] at hplace
    subst hplace
    refine ⟨e, hget, hfolder, fun target he => hlink t ht target ?_⟩
    rw [hloose.reaches.entryAt?, hget, he]
  have hkeeps : d.Keeps d' := by
    refine ⟨h.workingFolder, fun loc hfolder => ?_, fun loc target => ?_⟩
    · rw [h.entry, if_neg, hfolder]
      intro hmem
      obtain ⟨e, hget, hne, -⟩ := hgone hmem
      rw [hget] at hfolder
      exact hne (Option.some.inj hfolder)
    · rw [h.entry]
      split
      · rename_i hmem
        obtain ⟨e, hget, -, hne⟩ := hgone hmem
        rw [hget]
        exact ⟨nofun, fun he => absurd (Option.some.inj he) (hne target)⟩
      · rfl
  cases hfound : d.folderAt folder with
  | ok found => exact folderAt_mono hkeeps hfound
  | error e =>
    -- Where the folder is not found, nothing in it is taken away.
    have hnil : gone = [] := List.eq_nil_iff_forall_not_mem.mpr fun t ht => by
      obtain ⟨loc, hloose⟩ := h.loose t ht
      obtain ⟨name, hname⟩ := hlies t ht
      obtain ⟨found, hok, -⟩ := hname.loose_at hloose
      rw [hfound] at hok
      cases hok
    subst hnil
    rw [← hfound]
    exact folderAt_congr h.workingFolder (fun loc => by rw [h.entry, if_neg (by simp)]) folder

/-- What stands where another file will stand is not taken away. -/
theorem Takes.stays (h : d.Takes gone d') (hlies : ∀ u ∈ gone, ∃ other, u.LiesIn folder other)
    (ht : t.LiesIn folder name)
    (hcrossed : ∀ u ∈ gone, t.finalPath.components ≠ u.stagingPath.components)
    (hplace : d.place? t.finalPath = some loc) : d'.get? loc = d.get? loc := by
  rw [h.entry, if_neg]
  intro hmem
  obtain ⟨u, hu, hstaged⟩ := List.mem_map.mp hmem
  obtain ⟨place, hloose⟩ := h.loose u hu
  obtain ⟨other, hother⟩ := hlies u hu
  rw [hloose.reaches.place?, Option.some.injEq] at hstaged
  subst hstaged
  obtain ⟨found, -, rfl⟩ := hother.loose_at hloose
  unfold place? at hplace
  split at hplace
  · rename_i there hr
    rw [ht.final] at hr
    obtain ⟨found', -, rfl⟩ := resolve_join_ok ht.plain (Or.inl rfl) hr
    have hnames := (List.append_inj' (Option.some.inj hplace) rfl).2
    refine hcrossed u hu ?_
    rw [ht.final, hother.staging, List.head_eq_of_cons_eq hnames]
  · cases hplace

/-- If the folder is found as before, so is the other file. -/
theorem Takes.entryAt?_final (h : d.Takes gone d')
    (hlies : ∀ u ∈ gone, ∃ other, u.LiesIn folder other) (ht : t.LiesIn folder name)
    (hcrossed : ∀ u ∈ gone, t.finalPath.components ≠ u.stagingPath.components)
    (hfound : d'.folderAt folder = d.folderAt folder) :
    d'.entryAt? t.finalPath = d.entryAt? t.finalPath := by
  have hresolve : d'.resolve .kept t.finalPath = d.resolve .kept t.finalPath := by
    rw [ht.final, resolve_join ht.plain (Or.inl rfl), resolve_join ht.plain (Or.inl rfl), hfound]
    rfl
  cases hr : d.resolve .kept t.finalPath with
  | ok place =>
    rw [entryAt?_of_resolve hr, entryAt?_of_resolve (hresolve.trans hr)]
    exact h.stays hlies ht hcrossed (by rw [place?, hr])
  | error e => rw [entryAt?, entryAt?, hresolve, hr]

end Disk

/-! ### One file after another -/

namespace Session

/-- The files whose staging files are taken away when those of all that are not complete are to
be. -/
def gone : List Transfer → Disk → List Transfer
  | [], _ => []
  | t :: rest, d =>
    if t.completed then gone rest d
    else
      match d.remove t.stagingPath with
      | (.ok (), d) => t :: gone rest d
      | (.error _, d) => gone rest d

/-- What happens to the first file: it is complete and passed over, what is loose is taken away, or
its call fails. -/
theorem gone_cases (hlies : t.LiesIn folder name) (rest : List Transfer) (d : Disk) :
    (t.completed = true ∧ gone (t :: rest) d = gone rest d ∧
        removeStaging (t :: rest) d = removeStaging rest d) ∨
      t.completed = false ∧
        ((∃ loc, d.Loose t.stagingPath loc ∧ d.draw = (none, d.later) ∧
            gone (t :: rest) d = t :: gone rest (d.later.erase loc) ∧
            removeStaging (t :: rest) d =
              ((removeStaging rest (d.later.erase loc)).1 + 1,
                (removeStaging rest (d.later.erase loc)).2)) ∨
          ((∃ fault, d.draw = (some fault, d.later)) ∨ ∀ loc, ¬ d.Loose t.stagingPath loc) ∧
            gone (t :: rest) d = gone rest d.later ∧
            removeStaging (t :: rest) d = removeStaging rest d.later) := by
  rw [gone, removeStaging]
  by_cases hdone : t.completed = true
  · rw [if_pos hdone, if_pos hdone]
    exact Or.inl ⟨hdone, rfl, rfl⟩
  rw [if_neg hdone, if_neg hdone]
  refine Or.inr ⟨eq_false_of_ne_true hdone, ?_⟩
  rcases hlies.remove_staging d with ⟨loc, hloose, hdraw, hremove⟩ | ⟨⟨e, hremove⟩, hcause⟩
  · rw [hremove]
    exact Or.inl ⟨loc, hloose, hdraw, rfl, rfl⟩
  · rw [hremove]
    exact Or.inr ⟨hcause, rfl, rfl⟩

/-- The files that are gone are some of those that are not complete, in their order. -/
theorem gone_sublist (files : List Transfer) (d : Disk) :
    (gone files d).Sublist (files.filter fun t => !t.completed) := by
  induction files generalizing d with
  | nil => exact .slnil
  | cons t rest ih =>
    unfold gone
    by_cases hdone : t.completed = true
    · rw [if_pos hdone, List.filter_cons_of_neg (by simp [hdone])]
      exact ih d
    rw [if_neg hdone, List.filter_cons_of_pos (by simp [hdone])]
    rcases d.remove t.stagingPath with ⟨_ | ⟨⟨⟩⟩, removed⟩
    · exact (ih removed).cons t
    · exact (ih removed).cons_cons t

theorem gone_subset (files : List Transfer) (d : Disk) :
    ∀ t ∈ gone files d, t ∈ files ∧ t.completed = false := fun t ht => by
  simpa using List.mem_filter.mp ((gone_sublist files d).subset ht)

/-- The files that are gone are counted. -/
theorem removeStaging_count (files : List Transfer) (d : Disk) :
    (removeStaging files d).1 = (gone files d).length := by
  induction files generalizing d with
  | nil => rfl
  | cons t rest ih =>
    unfold removeStaging gone
    split
    · exact ih d
    · rcases d.remove t.stagingPath with ⟨_ | ⟨⟨⟩⟩, removed⟩
      · exact ih removed
      · exact congrArg (· + 1) (ih removed)

/-- **The disk is the one before without what is gone.** -/
theorem takes_gone {files : List Transfer} (hlies : ∀ t ∈ files, ∃ name, t.LiesIn folder name)
    (d : Disk) : d.Takes (gone files d) (removeStaging files d).2 := by
  induction files generalizing d with
  | nil => exact .nil d
  | cons t rest ih =>
    have hrest : ∀ t ∈ rest, ∃ name, t.LiesIn folder name :=
      fun u hu => hlies u (List.mem_cons_of_mem t hu)
    have hgone (d : Disk) : ∀ t ∈ gone rest d, ∃ name, t.LiesIn folder name :=
      fun u hu => hrest u (gone_subset rest d u hu).1
    obtain ⟨name, hname⟩ := hlies t List.mem_cons_self
    rcases gone_cases hname rest d with
      ⟨-, hgone', hdisk⟩ | ⟨-, ⟨loc, hloose, -, hgone', hdisk⟩ | ⟨-, hgone', hdisk⟩⟩
    all_goals rw [hgone', hdisk]
    · exact ih hrest d
    · exact .cons hloose (ih hrest _) (hgone _)
    · exact .of_same d.same_later (ih hrest d.later) (hgone d.later)

/-! ### In any order -/

/-- The faults of the calls that cancelling makes, if each file has its own. -/
def faultsOf (g : String → Option Fault) (files : List Transfer) : List (Option Fault) :=
  (files.filter fun t => !t.completed).map fun t => g t.fileId

variable {g : String → Option Fault} {files files' : List Transfer}

theorem faultsOf_cons (g : String → Option Fault) (t : Transfer) (rest : List Transfer) :
    faultsOf g (t :: rest) =
      if t.completed then faultsOf g rest else g t.fileId :: faultsOf g rest := by
  unfold faultsOf
  cases h : t.completed <;> simp [h]

/-- The call for the first file that is not complete draws its fault. -/
theorem draw_faultsOf {fault : Option Fault} (hfaults : d.faults = faultsOf g (t :: files))
    (hopen : t.completed = false) (hdraw : d.draw = (fault, d.later)) : g t.fileId = fault := by
  rw [faultsOf_cons, if_neg (by simp [hopen])] at hfaults
  rw [Disk.draw, hfaults] at hdraw
  exact congrArg Prod.fst hdraw

theorem later_faultsOf (hfaults : d.faults = faultsOf g (t :: files))
    (hopen : t.completed = false) : d.later.faults = faultsOf g files := by
  rw [faultsOf_cons, if_neg (by simp [hopen])] at hfaults
  rw [Disk.later, hfaults, List.tail_cons]

/-- No call failed for a file that is gone. -/
theorem faultless_of_gone (hlies : ∀ t ∈ files, ∃ name, t.LiesIn folder name)
    (hfaults : d.faults = faultsOf g files) : ∀ t ∈ gone files d, g t.fileId = none := by
  induction files generalizing d with
  | nil => nofun
  | cons t rest ih =>
    have hrest : ∀ t ∈ rest, ∃ name, t.LiesIn folder name :=
      fun u hu => hlies u (List.mem_cons_of_mem t hu)
    obtain ⟨name, hname⟩ := hlies t List.mem_cons_self
    rcases gone_cases hname rest d with
      ⟨hdone, hgone, -⟩ | ⟨hopen, ⟨loc, -, hdraw, hgone, -⟩ | ⟨-, hgone, -⟩⟩
    all_goals rw [hgone]
    · rw [faultsOf_cons, if_pos hdone] at hfaults
      exact ih hrest hfaults
    · intro u hu
      rcases List.mem_cons.mp hu with rfl | hu
      · exact draw_faultsOf hfaults hopen hdraw
      · exact ih (d := d.later.erase loc) hrest (later_faultsOf hfaults hopen) u hu
    · exact ih hrest (later_faultsOf hfaults hopen)

/-- **Each file for itself.** As long as the folder is found, a file is gone just if its call does
not fail and what is staged of it could be taken away at the start. -/
theorem gone_iff (hlies : ∀ t ∈ files, ∃ name, t.LiesIn folder name)
    (hapart : ∀ t ∈ files, ∀ u ∈ files, t = u ∨ t.Apart u)
    (hfaults : d.faults = faultsOf g files)
    (hfound : ∀ found, d.folderAt folder = .ok found →
      (removeStaging files d).2.folderAt folder = .ok found) (ht : t ∈ files) :
    t ∈ gone files d ↔
      t.completed = false ∧ g t.fileId = none ∧ ∃ loc, d.Loose t.stagingPath loc := by
  induction files generalizing d with
  | nil => cases ht
  | cons u rest ih =>
    have hrest : ∀ t ∈ rest, ∃ name, t.LiesIn folder name :=
      fun v hv => hlies v (List.mem_cons_of_mem u hv)
    have hapart' : ∀ t ∈ rest, ∀ v ∈ rest, t = v ∨ t.Apart v := fun t ht v hv =>
      hapart t (List.mem_cons_of_mem u ht) v (List.mem_cons_of_mem u hv)
    obtain ⟨name, hname⟩ := hlies u List.mem_cons_self
    rcases gone_cases hname rest d with
      ⟨hdone, hgone, hdisk⟩ | ⟨hopen, ⟨loc, hloose, hdraw, hgone, hdisk⟩ | ⟨hcause, hgone, hdisk⟩⟩
    all_goals rw [hdisk] at hfound
    all_goals rw [hgone]
    · rw [faultsOf_cons, if_pos hdone] at hfaults
      rcases List.mem_cons.mp ht with rfl | ht
      · refine ⟨fun hmem => ?_, fun h => by simp [hdone] at h⟩
        have hopen := (gone_subset rest d t hmem).2
        simp [hdone] at hopen
      · exact ih hrest hapart' hfaults hfound ht
    · have hsheds := d.erase_later_sheds loc
      have hstays : ∀ found, d.folderAt folder = .ok found →
          (d.later.erase loc).folderAt folder = .ok found := fun found h =>
        Disk.folderAt_sheds (takes_gone hrest _).sheds (hfound found h)
      by_cases hsame : t = u
      · subst hsame
        exact ⟨fun _ => ⟨hopen, draw_faultsOf hfaults hopen hdraw, loc, hloose⟩,
          fun _ => List.mem_cons_self⟩
      have htail := (List.mem_cons.mp ht).resolve_left hsame
      obtain ⟨other, hother⟩ := hrest t htail
      have haway := (hapart t ht u List.mem_cons_self).resolve_left hsame
      rw [List.mem_cons, or_iff_right hsame, ih (d := d.later.erase loc) hrest hapart'
        (later_faultsOf hfaults hopen)
        (fun found h => hfound found (Disk.folderAt_sheds hsheds h)) htail]
      refine and_congr_right fun _ => and_congr_right fun _ => ⟨fun ⟨place, h⟩ =>
        ⟨place, hother.loose_back hsheds h⟩, fun ⟨place, h⟩ => ⟨place, ?_⟩⟩
      refine hother.loose_stays hstays ?_ h
      rw [hloose.get?_erase, if_neg (hother.loose_ne hname haway h hloose)]
    · have hrest' (htail : t ∈ rest) : t ∈ gone rest d.later ↔
          t.completed = false ∧ g t.fileId = none ∧ ∃ loc, d.Loose t.stagingPath loc := by
        obtain ⟨other, hother⟩ := hrest t htail
        rw [ih hrest hapart' (later_faultsOf hfaults hopen)
          (fun found h => hfound found (by rwa [Disk.folderAt_later] at h)) htail]
        simp only [hother.loose_iff_of_same d.same_later]
      by_cases hsame : t = u
      · subst hsame
        have hnot : ¬ (g t.fileId = none ∧ ∃ loc, d.Loose t.stagingPath loc) := by
          rintro ⟨hnone, loc, hloose⟩
          rcases hcause with ⟨fault, hdraw⟩ | hnever
          · rw [draw_faultsOf hfaults hopen hdraw] at hnone
            cases hnone
          · exact hnever loc hloose
        exact ⟨fun hmem => (hrest' (gone_subset rest _ t hmem).1).mp hmem,
          fun h => absurd h.2 hnot⟩
      · exact hrest' ((List.mem_cons.mp ht).resolve_left hsame)

/-- With faults to come, the disk is the one before without what is gone. -/
theorem takes_gone_facing (hlies : ∀ t ∈ files, ∃ name, t.LiesIn folder name) (d : Disk)
    (faults : List (Option Fault)) :
    d.Takes (gone files (d.facing faults)) (removeStaging files (d.facing faults)).2 :=
  .of_same (d.same_facing faults) (takes_gone hlies _) fun t ht => hlies t (gone_subset _ _ t ht).1

theorem gone_facing_iff (hlies : ∀ t ∈ files, ∃ name, t.LiesIn folder name)
    (hapart : ∀ t ∈ files, ∀ u ∈ files, t = u ∨ t.Apart u)
    (hfound : ∀ found, d.folderAt folder = .ok found →
      (removeStaging files (d.facing (faultsOf g files))).2.folderAt folder = .ok found)
    (ht : t ∈ files) :
    t ∈ gone files (d.facing (faultsOf g files)) ↔
      t.completed = false ∧ g t.fileId = none ∧ ∃ loc, d.Loose t.stagingPath loc := by
  have hsame := d.same_facing (faultsOf g files)
  obtain ⟨name, hname⟩ := hlies t ht
  rw [gone_iff hlies hapart rfl (fun found h => hfound found (by rwa [hsame.folderAt] at h)) ht]
  simp only [hname.loose_iff_of_same hsame]

/-- The effect of cancelling does not depend on the order of the files, each with its own fault or
none. A file is gone just if its call does not fail and its staging file could be removed at the
start. -/
structure Unordered (files : List Transfer) (d : Disk) (g : String → Option Fault) : Prop where
  gone : ∀ t ∈ files, t ∈ Session.gone files (d.facing (faultsOf g files)) ↔
    t.completed = false ∧ g t.fileId = none ∧
      ((d.facing []).remove t.stagingPath).1 = .ok ()
  perm : ∀ files', files'.Perm files →
    (removeStaging files' (d.facing (faultsOf g files'))).1 =
        (removeStaging files (d.facing (faultsOf g files))).1 ∧
      (removeStaging files (d.facing (faultsOf g files))).2.Same
        (removeStaging files' (d.facing (faultsOf g files'))).2

/-- **No order is better than another**, as long as the folder is found afterwards. -/
theorem Tidy.unordered {s : Session} (hs : s.Tidy folder)
    (hfound : (removeStaging s.files (d.facing (faultsOf g s.files))).2.folderAt folder =
      d.folderAt folder) : Unordered s.files d g := by
  have hmem {t : Transfer} (ht : t ∈ s.files) :=
    gone_facing_iff (d := d) (g := g) hs.lies hs.apart (fun found h => by rwa [hfound]) ht
  refine ⟨fun t ht => ?_, fun files' hperm => ?_⟩
  · obtain ⟨name, hname⟩ := hs.lies t ht
    rw [hmem ht, hname.staging, Disk.remove_facing_iff (FileName.plain_staged hname.plain)]
  have hlies' : ∀ t ∈ files', ∃ name, t.LiesIn folder name :=
    fun t ht => hs.lies t (hperm.mem_iff.mp ht)
  have hapart' : ∀ t ∈ files', ∀ u ∈ files', t = u ∨ t.Apart u :=
    fun t ht u hu => hs.apart t (hperm.mem_iff.mp ht) u (hperm.mem_iff.mp hu)
  have htakes := takes_gone_facing hs.lies d (faultsOf g s.files)
  have htakes' := takes_gone_facing hlies' d (faultsOf g files')
  -- What is gone in the other order could be taken away at the start, so it is gone in this one.
  have hsub : ∀ t ∈ gone files' (d.facing (faultsOf g files')),
      t ∈ gone s.files (d.facing (faultsOf g s.files)) := fun t ht => by
    obtain ⟨hmem', hopen⟩ := gone_subset _ _ t ht
    exact (hmem (hperm.mem_iff.mp hmem')).mpr
      ⟨hopen, faultless_of_gone hlies' rfl t ht, htakes'.loose t ht⟩
  -- So the other order leaves no less, and the folder is found after it too.
  have hleaves := htakes'.sheds_of_subset htakes hsub
  have hiff : ∀ t, t ∈ gone files' (d.facing (faultsOf g files')) ↔
      t ∈ gone s.files (d.facing (faultsOf g s.files)) := fun t => by
    refine ⟨hsub t, fun ht => ?_⟩
    have hmem' := (gone_subset _ _ t ht).1
    rw [gone_facing_iff hlies' hapart'
      (fun found h => Disk.folderAt_sheds hleaves (by rwa [hfound])) (hperm.mem_iff.mpr hmem')]
    exact (hmem hmem').mp ht
  rw [removeStaging_count, removeStaging_count]
  exact htakes.unique htakes' hiff

/-- What cancelling does: the staging files of files that are not complete are taken away and no
other entry, least of all one where a file will stand or stands. If the folder is found afterwards,
such entries are found as before, and the order of the files does not matter; and it is found
unless a link has been taken away. -/
structure Cleared (s : Session) (folder : Path) (d d' : Disk) : Prop where
  unfinished : ∀ t ∈ gone s.files d, t ∈ s.files ∧ t.completed = false
  takes : d.Takes (gone s.files d) d'
  stays : ∀ t ∈ s.files, ∀ loc, d.place? t.finalPath = some loc → d'.get? loc = d.get? loc
  found : d'.folderAt folder = d.folderAt folder →
    ∀ t ∈ s.files, d'.entryAt? t.finalPath = d.entryAt? t.finalPath
  reachable : (∀ t ∈ gone s.files d, ∀ target, d.entryAt? t.stagingPath ≠ some (.link target)) →
    d'.folderAt folder = d.folderAt folder
  unordered : ∀ g, (removeStaging s.files (d.facing (faultsOf g s.files))).2.folderAt folder =
    d.folderAt folder → Unordered s.files d g

theorem Tidy.cleared {s : Session} (hs : s.Tidy folder) (d : Disk) :
    s.Cleared folder d (removeStaging s.files d).2 := by
  have hgone := gone_subset s.files d
  have htakes := takes_gone hs.lies d
  have hlies : ∀ u ∈ gone s.files d, ∃ other, u.LiesIn folder other :=
    fun u hu => hs.lies u (hgone u hu).1
  have hcrossed {t : Transfer} (ht : t ∈ s.files) :
      ∀ u ∈ gone s.files d, t.finalPath.components ≠ u.stagingPath.components :=
    fun u hu he => hs.distinct.crossed t ht u (hgone u hu).1 (beq_iff_eq.mpr he)
  refine ⟨hgone, htakes, fun t ht loc hplace => ?_, fun hfound t ht => ?_, htakes.folderAt hlies,
    fun g hfound => hs.unordered hfound⟩
  · obtain ⟨name, hname⟩ := hs.lies t ht
    exact htakes.stays hlies hname (hcrossed ht) hplace
  · obtain ⟨name, hname⟩ := hs.lies t ht
    exact htakes.entryAt?_final hlies hname (hcrossed ht) hfound

end Session

namespace Receiver

/-- **Cancelling clears what is not complete**, and nothing else. -/
theorem cancel_clears {start : Receiver} (hidle : start.session = none) (events : List Event)
    (sessionId : String) :
    ((start.after events).sessionId? = some sessionId →
      ∃ s d, (start.after events).session = some s ∧
        s.Cleared start.outputFolder (start.after events).disk d ∧
        (start.after events).cancelSession sessionId =
          (.ok ⟨sessionId, (Session.gone s.files (start.after events).disk).length⟩,
            { start.after events with session := none, disk := d }) ∧
        (start.after events).cancelForPeer sessionId =
          (start.after events).cancelSession sessionId) ∧
      ((start.after events).sessionId? ≠ some sessionId →
        (start.after events).cancelSession sessionId =
          (.error (.sessionMismatch (start.after events).sessionId? (some sessionId)),
            start.after events) ∧
        (start.after events).cancelForPeer sessionId =
          (.error (if (start.after events).peer.isNone then .notPaired
            else .sessionMismatch (start.after events).sessionId? (some sessionId)),
            start.after events)) := by
  have hguarded : (start.after events).Guarded :=
    after_induction (fun _ _ _ hmove => hmove.guarded) (fun _ _ h => h) events
      (by simp [Guarded, hidle])
  have htidy := tidy_after (tidy_of_idle hidle) events
  have hfolder := outputFolder_after start events
  generalize start.after events = r at *
  constructor
  · intro hcurrent
    obtain ⟨s, hs, rfl⟩ := Option.map_eq_some_iff.mp hcurrent
    have hpeer : r.peer.isNone = false := by
      rw [← Option.not_isSome, hguarded (by rw [hs]; rfl)]
      rfl
    refine ⟨s, _, hs, hfolder ▸ (htidy s hs).cleared r.disk, ?_, ?_⟩
    · rw [← Session.removeStaging_count]
      simp [cancelSession, hs]
    · simp [cancelForPeer, hpeer]
  · intro hother
    have hcancel : r.cancelSession sessionId =
        (.error (.sessionMismatch r.sessionId? (some sessionId)), r) := by
      unfold cancelSession sessionId? at *
      cases hs : r.session with
      | none => rfl
      | some s =>
        have hid : s.id ≠ sessionId := by simpa [hs] using hother
        simp [hid]
    refine ⟨hcancel, ?_⟩
    rw [cancelForPeer, hcancel]
    split <;> rfl

/-- Three files that are offered together. -/
def halfwayManifest : Manifest :=
  [("f", { name := some "a", size := 5 }), ("g", { name := some "b", size := 2 }),
    ("h", { name := some "c", size := 1 })]

/-- One of them is not begun, one partly received and one complete. -/
def halfwayEvents : List Event :=
  [.asked (.pair "123456" { id := "d", nickname := "n" }),
    .asked (.openSession "s" halfwayManifest), .asked (.writeChunk (some "s") "g" ⟨#[7]⟩),
    .asked (.writeChunk (some "s") "h" ⟨#[8]⟩)]

theorem ordered_halfway : Admission.ordered halfwayManifest = halfwayManifest :=
  List.mergeSort_of_pairwise (by decide)

theorem cancel_halfway : unpairedExample.session = none ∧
    (unpairedExample.after halfwayEvents).sessionId? = some "s" ∧
    (unpairedExample.after halfwayEvents).disk.contentAt? ⟨"out/c"⟩ = some ⟨#[8]⟩ ∧
    (∃ d, (unpairedExample.after halfwayEvents).cancelForPeer "s" =
        (.ok ⟨"s", 1⟩, { unpairedExample.after halfwayEvents with session := none, disk := d }) ∧
      d.get? ["out", "c"] = (unpairedExample.after halfwayEvents).disk.get? ["out", "c"]) ∧
    (unpairedExample.after halfwayEvents).cancelForPeer "t" =
      (.error (.sessionMismatch (some "s") (some "t")), unpairedExample.after halfwayEvents) := by
  have hidle : unpairedExample.session = none := rfl
  obtain ⟨hcurrent, hpeer, hpaths, hplace, hcontent, hcount⟩ :
      (unpairedExample.after halfwayEvents).sessionId? = some "s" ∧
        (unpairedExample.after halfwayEvents).peer.isNone = false ∧
        (unpairedExample.after halfwayEvents).session.map
          (fun s => s.files.map (·.finalPath)) = some [⟨"out/a"⟩, ⟨"out/b"⟩, ⟨"out/c"⟩] ∧
        (unpairedExample.after halfwayEvents).disk.place? ⟨"out/c"⟩ = some ["out", "c"] ∧
        (unpairedExample.after halfwayEvents).disk.contentAt? ⟨"out/c"⟩ = some ⟨#[8]⟩ ∧
        ((unpairedExample.after halfwayEvents).cancelSession "s").1.toOption = some ⟨"s", 1⟩ := by
    simp only [halfwayEvents, after_cons, after_nil, meet, perform, openForPeer, openSession,
      Admission.ofManifest, ordered_halfway]
    decide +kernel
  obtain ⟨hclear, -⟩ := cancel_clears hidle halfwayEvents "s"
  obtain ⟨-, hrefuse⟩ := cancel_clears hidle halfwayEvents "t"
  obtain ⟨s, d, hs, hcleared, hcancel, hsame⟩ := hclear hcurrent
  obtain ⟨t, ht, hfinal⟩ : ∃ t ∈ s.files, t.finalPath = ⟨"out/c"⟩ := by
    rw [hs, Option.map_some, Option.some.injEq] at hpaths
    exact List.mem_map.mp (hpaths ▸ by simp)
  rw [hcancel] at hcount hsame
  have hlength : (Session.gone s.files (unpairedExample.after halfwayEvents).disk).length = 1 :=
    congrArg Cancelled.removed (Option.some.inj hcount)
  refine ⟨hidle, hcurrent, hcontent, ⟨d, ?_, ?_⟩, ?_⟩
  · rw [hsame, hlength]
  · exact hcleared.stays t ht _ (hfinal ▸ hplace)
  · obtain ⟨-, hanswer⟩ := hrefuse (by simp [hcurrent])
    rw [hanswer, hpeer, hcurrent]
    rfl

/-- The folder for received files is a link, where the first of the files is going to be staged. -/
def linkedExample : Receiver :=
  { unpairedExample with
    outputFolder := ⟨"a.part"⟩
    disk := (Disk.mk ∅ [] []).put ["a.part"] (.link ".") }

theorem order_matters_behind_link :
    linkedExample.session = none ∧
      (linkedExample.after halfwayEvents).sessionId? = some "s" ∧
      (linkedExample.after halfwayEvents).disk.contentAt? ⟨"a.part/c"⟩ = some ⟨#[8]⟩ ∧
      ((linkedExample.after halfwayEvents).cancelSession "s").1.toOption = some ⟨"s", 1⟩ ∧
      ((linkedExample.after halfwayEvents).cancelSession "s").2.disk.entryAt? ⟨"a.part/c"⟩ =
        none ∧
      (linkedExample.after halfwayEvents).session.map (fun s =>
        (Session.removeStaging s.files.reverse (linkedExample.after halfwayEvents).disk).1) =
          some 2 := by
  simp only [halfwayEvents, after_cons, after_nil, meet, perform, openForPeer, openSession,
    Admission.ofManifest, ordered_halfway]
  decide +kernel
end Receiver
end FileReceiver
