/-
# Which file gets which name

The entries of a manifest are gone through in the order of their ids, which
are all different, so that it does not matter in which order they are
enumerated (`Admission.ordered_eq`). A refused entry claims nothing. So
without it the others get the same verdicts and the same records
(`Admission.ofManifest_keeping`), and the session that is opened is the same
(`Receiver.names_by_accepted`).

Key definitions: `Admission.keeping`.
Key theorems: `Admission.ordered_eq`, `Admission.foldl_keeping`,
`Admission.ofManifest_keeping`, `Receiver.names_by_accepted`.
-/
import Mathlib.Data.List.Nodup
import FileReceiver.Proofs.Histories

namespace FileReceiver

namespace Admission

/-! ### The order of the entries -/

theorem pairwise_ordered (manifest : Manifest) :
    (ordered manifest).Pairwise fun x y => x.1 ≤ y.1 := by
  have hsorted : (ordered manifest).Pairwise fun x y => decide (x.1 ≤ y.1) = true := by
    apply List.pairwise_mergeSort
    · intro x y z hxy hyz
      rw [decide_eq_true_eq] at *
      exact String.le_trans hxy hyz
    · intro x y
      simpa using String.le_total x.1 y.1
  simpa using hsorted

/-- There is one way to put entries of different ids in order. -/
theorem ordered_eq {manifest entries : Manifest} (hids : (manifest.map (·.1)).Nodup)
    (hperm : entries.Perm manifest) (hsorted : entries.Pairwise fun x y => x.1 ≤ y.1) :
    ordered manifest = entries := by
  have hordered := perm_ordered manifest
  refine List.Perm.eq_of_pairwise ?_ (pairwise_ordered manifest) hsorted
    (hordered.trans hperm.symm)
  intro x y hx hy hxy hyx
  exact List.inj_on_of_nodup_map hids (hordered.mem_iff.mp hx) (hperm.mem_iff.mp hy)
    (String.le_antisymm hxy hyx)

/-- The order in which the entries are enumerated does not matter. -/
theorem ordered_perm {manifest manifest' : Manifest} (hids : (manifest.map (·.1)).Nodup)
    (hperm : manifest'.Perm manifest) : ordered manifest' = ordered manifest := by
  have hids' : (manifest'.map (·.1)).Nodup := (hperm.map _).nodup_iff.mpr hids
  exact ordered_eq hids' ((perm_ordered manifest).trans hperm.symm) (pairwise_ordered manifest)

/-- Entries that are left out do not change the order of the others. -/
theorem ordered_filter {manifest : Manifest} (hids : (manifest.map (·.1)).Nodup)
    (kept : String × FileOffer → Bool) :
    ordered (manifest.filter kept) = (ordered manifest).filter kept := by
  have hsublist : ((manifest.filter kept).map (·.1)).Sublist (manifest.map (·.1)) :=
    List.filter_sublist.map _
  exact ordered_eq (hids.sublist hsublist) ((perm_ordered manifest).filter kept)
    ((pairwise_ordered manifest).filter kept)

/-! ### Entries that are left out -/

/-- What is decided, without the verdicts about files that are not kept. -/
def keeping (kept : String → Bool) (a : Admission) : Admission :=
  { a with verdicts := a.verdicts.filter fun v => kept v.1 }

variable {policy : Policy} {folder : Path} {kept : String → Bool}

/-- An entry that is kept is decided about as it would be among all. -/
theorem addFile_keeping (a : Admission) {entry : String × FileOffer} (hkept : kept entry.1 = true) :
    addFile policy folder (a.keeping kept) entry =
      (addFile policy folder a entry).keeping kept := by
  have hclaims : (a.keeping kept).claims = a.claims := rfl
  by_cases haccepted : policy (Transfer.ofOffer entry.1 entry.2 folder a.claims) = true
  · rw [addFile_accepted (hclaims ▸ haccepted), addFile_accepted haccepted]
    simp [keeping, hkept]
  · rw [addFile_refused (hclaims ▸ haccepted), addFile_refused haccepted]
    simp [keeping, hkept]

/-- An entry that is refused can be left out. -/
theorem keeping_addFile (a : Admission) {entry : String × FileOffer} (hleft : kept entry.1 = false)
    (hrefused : (entry.1, true) ∉ (addFile policy folder a entry).verdicts) :
    (addFile policy folder a entry).keeping kept = a.keeping kept := by
  have hnot : ¬ policy (Transfer.ofOffer entry.1 entry.2 folder a.claims) = true := by
    intro haccepted
    apply hrefused
    rw [verdicts_addFile, haccepted]
    exact List.mem_cons_self
  rw [addFile_refused hnot]
  simp [keeping, hleft]

/-- A verdict stands. -/
theorem mem_verdicts_foldl {v : String × Bool} (entries : Manifest) {a : Admission}
    (hv : v ∈ a.verdicts) : v ∈ (entries.foldl (addFile policy folder) a).verdicts := by
  refine List.foldlRecOn entries (addFile policy folder)
    (motive := fun a => v ∈ a.verdicts) hv ?_
  intro a ha entry _
  rw [verdicts_addFile]
  exact List.mem_cons_of_mem _ ha

/-- **Refused entries can be left out.** If all entries are kept that are accepted, the others make
no difference to what is decided about these. -/
theorem foldl_keeping (entries : Manifest) (a : Admission)
    (hkept : ∀ fileId, (fileId, true) ∈ (entries.foldl (addFile policy folder) a).verdicts →
      kept fileId = true) :
    (entries.filter fun e => kept e.1).foldl (addFile policy folder) (a.keeping kept) =
      (entries.foldl (addFile policy folder) a).keeping kept := by
  induction entries generalizing a with
  | nil => rfl
  | cons entry entries ih =>
    rw [List.foldl_cons] at hkept ⊢
    have hrest := ih (addFile policy folder a entry) hkept
    by_cases hentry : kept entry.1 = true
    · rw [List.filter_cons, if_pos hentry, List.foldl_cons, addFile_keeping a hentry]
      exact hrest
    · have hrefused : (entry.1, true) ∉ (addFile policy folder a entry).verdicts :=
        fun hmem => hentry (hkept entry.1 (mem_verdicts_foldl entries hmem))
      rw [List.filter_cons, if_neg hentry,
        ← keeping_addFile a (Bool.eq_false_iff.mpr hentry) hrefused]
      exact hrest

theorem ofManifest_keeping {manifest : Manifest} (hids : (manifest.map (·.1)).Nodup)
    (hkept : ∀ fileId, (fileId, true) ∈ (ofManifest policy folder manifest).verdicts →
      kept fileId = true) :
    ofManifest policy folder (manifest.filter fun e => kept e.1) =
      (ofManifest policy folder manifest).keeping kept := by
  unfold ofManifest at hkept ⊢
  rw [ordered_filter hids]
  exact foldl_keeping (ordered manifest) {} hkept

end Admission

namespace Receiver

variable {r : Receiver} {id : String} {manifest : Manifest}

/-- Opening a session depends on the manifest by what is decided about it only. -/
theorem openSession_congr {manifest' : Manifest}
    (h : Admission.ofManifest r.policy r.outputFolder manifest' =
      Admission.ofManifest r.policy r.outputFolder manifest) :
    r.openSession id manifest' = r.openSession id manifest := by
  unfold openSession
  rw [h]

/-- Opening a session tells of the files that are kept what it tells of them among all. -/
theorem openSession_keeping {manifest' : Manifest} {kept : String → Bool} {opened : Opened}
    {r' : Receiver}
    (h : Admission.ofManifest r.policy r.outputFolder manifest' =
      (Admission.ofManifest r.policy r.outputFolder manifest).keeping kept)
    (hopened : r.openSession id manifest = (.ok opened, r')) :
    r.openSession id manifest' =
      (.ok { opened with verdicts := opened.verdicts.filter fun v => kept v.1 }, r') := by
  unfold openSession at hopened ⊢
  rw [h]
  split at hopened
  · cases hopened
  rename_i hid
  rw [if_neg hid]
  split at hopened
  · cases hopened
  · cases hopened
    simp only [Admission.keeping, List.filter_reverse]

/-- **Names depend on the accepted entries only.** Let the ids of a manifest be different. In
whatever order its entries are enumerated, opening a session does the same. And if entries are left
out that would be refused, the files that are left get the same verdicts, and the session that is
opened is the same, with the same records of its files. -/
theorem names_by_accepted (hids : (manifest.map (·.1)).Nodup) :
    (∀ manifest', manifest'.Perm manifest →
        r.openSession id manifest' = r.openSession id manifest) ∧
      ∀ opened r', r.openSession id manifest = (.ok opened, r') →
        ∀ kept : String → Bool, (∀ fileId, (fileId, true) ∈ opened.verdicts → kept fileId = true) →
          r.openSession id (manifest.filter fun e => kept e.1) =
            (.ok { opened with verdicts := opened.verdicts.filter fun v => kept v.1 }, r') := by
  constructor
  · intro manifest' hperm
    apply openSession_congr
    rw [Admission.ofManifest, Admission.ofManifest, Admission.ordered_perm hids hperm]
  · intro opened r' hopened kept hkept
    obtain ⟨hverdicts, -, -⟩ := openSession_ok hopened
    refine openSession_keeping (Admission.ofManifest_keeping hids ?_) hopened
    intro fileId haccepted
    apply hkept
    rw [hverdicts]
    exact List.mem_reverse.mpr haccepted

/-- Small files only. -/
def sparingExample : Receiver :=
  { unpairedExample with policy := fun t => t.declaredSize ≤ 10 }

/-- Three files of one name, the second of which is too large. -/
def crowdedManifest : Manifest :=
  [("h", { name := some "a.txt", size := 2 }), ("f", { name := some "a.txt", size := 1 }),
    ("g", { name := some "a.txt", size := 50 })]

theorem crowded_without_large :
    (crowdedManifest.map (·.1)).Nodup ∧
      sparingExample.openSession "s" crowdedManifest.reverse =
        sparingExample.openSession "s" crowdedManifest ∧
      ∃ opened r', sparingExample.openSession "s" crowdedManifest = (.ok opened, r') ∧
        opened.verdicts = [("f", true), ("g", false), ("h", true)] ∧
        r'.session.map (fun s => s.files.map (·.finalPath)) =
          some [⟨"out/a.txt"⟩, ⟨"out/a_1.txt"⟩] ∧
        sparingExample.openSession "s" (crowdedManifest.filter fun e => e.1 != "g") =
          (.ok { opened with verdicts := [("f", true), ("h", true)] }, r') := by
  have hids : (crowdedManifest.map (·.1)).Nodup := by decide
  have hordered : Admission.ordered crowdedManifest =
      [("f", { name := some "a.txt", size := 1 }), ("g", { name := some "a.txt", size := 50 }),
        ("h", { name := some "a.txt", size := 2 })] :=
    Admission.ordered_eq hids (by decide) (by decide)
  obtain ⟨hperm, hleft⟩ := @names_by_accepted sparingExample "s" _ hids
  obtain ⟨opened, r', hopened, hverdicts, hpaths⟩ :
      ∃ opened r', sparingExample.openSession "s" crowdedManifest = (.ok opened, r') ∧
        opened.verdicts = [("f", true), ("g", false), ("h", true)] ∧
        r'.session.map (fun s => s.files.map (·.finalPath)) =
          some [⟨"out/a.txt"⟩, ⟨"out/a_1.txt"⟩] := by
    simp only [openSession, Admission.ofManifest, hordered]
    exact ⟨_, _, rfl, by decide +kernel, by decide +kernel⟩
  have haccepted : ∀ fileId, (fileId, true) ∈ opened.verdicts → (fileId != "g") = true := by
    intro fileId hmem
    rw [hverdicts] at hmem
    simp only [List.mem_cons, Prod.mk.injEq, and_true, reduceCtorEq, and_false, false_or,
      List.not_mem_nil, or_false] at hmem
    rcases hmem with rfl | rfl <;> decide
  have hkept := hleft opened r' hopened (fun fileId => fileId != "g") haccepted
  rw [hverdicts] at hkept
  exact ⟨hids, hperm _ (List.reverse_perm _), opened, r', hopened, hverdicts, hpaths, hkept⟩

end Receiver
end FileReceiver
