/-
# Paths of entries of a folder

Joining a plain name to a folder puts one step behind the steps of the folder
and changes nothing before it (`stepsOf_join`, `components_join`), so two
plain names give the same path in a folder only if they are the same name
(`sameAs_join`). The final path and the staging path of a transfer are of
this form (`Transfer.exists_liesIn`).

Key definitions: `Transfer.LiesIn`.
Key theorems: `Path.stepsOf_join`, `Path.components_join`,
`FileName.plain_numbered`, `FileName.stagingPath_join`,
`Transfer.exists_liesIn`.
-/
import FileReceiver.Disk.Resolve
import FileReceiver.Proofs.Names
import FileReceiver.Transfer.Basic

namespace FileReceiver

open FileName (IsPlain)

/-! ### Pieces between separators -/

section Pieces

variable {separator : Char}

theorem Text.pieces_ne_nil (separator : Char) : ∀ s, Text.pieces separator s ≠ []
  | [] => by simp [Text.pieces]
  | c :: s => by
    unfold Text.pieces
    split
    · simp
    · split <;> simp

theorem Text.pieces_append (separator : Char) (b : List Char) : ∀ a,
    Text.pieces separator (a ++ separator :: b) =
      Text.pieces separator a ++ Text.pieces separator b
  | [] => by simp [Text.pieces]
  | c :: a => by
    rw [List.cons_append, Text.pieces, Text.pieces, Text.pieces_append separator b a]
    by_cases hc : c = separator
    · simp [hc]
    · obtain ⟨piece, rest, hp⟩ := List.exists_cons_of_ne_nil (Text.pieces_ne_nil separator a)
      simp [hc, hp]

theorem Text.pieces_of_not_mem : ∀ {s : List Char}, separator ∉ s → Text.pieces separator s = [s]
  | [], _ => rfl
  | c :: s, h => by
    rw [List.mem_cons, not_or] at h
    rw [Text.pieces, if_neg (Ne.symm h.1), Text.pieces_of_not_mem h.2]

end Pieces

namespace Path

variable {name : String} (p : Path)

theorem head?_plain (h : IsPlain name.toList) : name.toList.head? ≠ some '/' := fun hhead =>
  h.not_slash (List.mem_of_head? hhead)

/-- The text of a joined path: the name alone, or the name behind a separator. -/
theorem join_cases (h : IsPlain name.toList) :
    (p.text = "" ∧ p.join name = ⟨name⟩) ∨
      ∃ a, (p.text.toList = a ++ ['/'] ∨ (p.text.toList = a ∧ a ≠ [])) ∧
        (p.join name).text.toList = a ++ '/' :: name.toList := by
  unfold join
  by_cases hempty : p.text = ""
  · exact Or.inl ⟨hempty, by rw [if_pos (Or.inr hempty)]⟩
  rw [if_neg (by simp [hempty, head?_plain h])]
  have hne : p.text.toList ≠ [] := fun h => hempty (String.toList_eq_nil_iff.mp h)
  refine Or.inr ?_
  by_cases hlast : p.text.toList.getLast? = some '/'
  · obtain ⟨a, ha⟩ := List.getLast?_eq_some_iff.mp hlast
    refine ⟨a, Or.inl ha, ?_⟩
    rw [if_pos hlast]
    simp [String.toList_append, ha]
  · refine ⟨p.text.toList, Or.inr ⟨rfl, hne⟩, ?_⟩
    rw [if_neg hlast]
    simp [String.toList_append]

/-- The pieces of a joined path. -/
theorem pieces_join (h : IsPlain name.toList) :
    (p.text = "" ∧ pieces (p.join name).text.toList = [name.toList]) ∨
      ∃ first rest, (pieces p.text.toList = first :: rest ∨
          pieces p.text.toList = first :: (rest ++ [[]])) ∧
        pieces (p.join name).text.toList = first :: (rest ++ [name.toList]) ∧
        (p.join name).isAbsolute = p.isAbsolute := by
  have hname : pieces name.toList = [name.toList] := Text.pieces_of_not_mem h.not_slash
  rcases join_cases p h with ⟨hempty, hj⟩ | ⟨a, ha, hj⟩
  · exact Or.inl ⟨hempty, by rw [hj]; exact hname⟩
  obtain ⟨first, rest, hfirst⟩ := List.exists_cons_of_ne_nil (Text.pieces_ne_nil '/' a)
  refine Or.inr ⟨first, rest, ?_, ?_, ?_⟩
  · rcases ha with ha | ⟨ha, -⟩
    · right
      rw [ha, pieces, Text.pieces_append, hfirst]
      rfl
    · left
      rw [ha, pieces, hfirst]
  · rw [hj, pieces, Text.pieces_append, hfirst, ← pieces, hname]
    rfl
  · rw [isAbsolute, isAbsolute, hj]
    rcases ha with ha | ⟨ha, hne⟩
    · rw [ha]; cases a <;> rfl
    · rw [ha]
      obtain ⟨c, a, rfl⟩ := List.exists_cons_of_ne_nil hne
      rfl

theorem component?_plain (h : IsPlain name.toList) :
    component? name.toList = some (.name name) := by
  simp [component?, h.ne_nil, h.ne_dot, h.ne_dots]

theorem filterMap_pieces {f : List Char → Option Component} {first name : List Char}
    {rest pieces : List (List Char)} {c : Component} (hempty : f [] = none)
    (hname : f name = some c)
    (hp : pieces = first :: rest ∨ pieces = first :: (rest ++ [[]])) :
    (rest ++ [name]).filterMap f = pieces.tail.filterMap f ++ [c] := by
  rcases hp with rfl | rfl <;> simp [List.filterMap_append, hempty, hname]

/-- A plain name is one step behind those of the folder. -/
theorem stepsOf_join (h : IsPlain name.toList) :
    Disk.stepsOf (p.join name).text = Disk.stepsOf p.text ++ [.name name] := by
  unfold Disk.stepsOf
  generalize hf : (fun piece : List Char =>
    if piece = ['.'] then some Component.here else component? piece) = f
  have hempty : f [] = none := by rw [← hf]; rfl
  have hname : f name.toList = some (.name name) := by
    rw [← hf]
    simp only [if_neg h.ne_dot, component?_plain h]
  rcases pieces_join p h with ⟨he, hj⟩ | ⟨first, rest, hp, hj, -⟩
  · rw [hj, he]
    simp [pieces, Text.pieces, hempty, hname]
  · have hrest := filterMap_pieces hempty hname hp
    rw [hj]
    rcases hp with hp | hp <;>
    · rw [hp, List.filterMap_cons, List.filterMap_cons, hrest, hp, List.tail_cons]
      cases f first <;> rfl

/-- A plain name is one component behind those of the folder. -/
theorem components_join (h : IsPlain name.toList) :
    (p.join name).components = p.components ++ [.name name] := by
  rcases pieces_join p h with ⟨he, hj⟩ | ⟨first, rest, hp, hj, habs⟩
  · have hjoin : p.join name = ⟨name⟩ := by rw [join, if_pos (Or.inr he)]
    have habs : (⟨name⟩ : Path).isAbsolute = false := by
      simpa [isAbsolute] using head?_plain h
    rw [components, components, hj, hjoin, habs, he]
    have hempty : component? [] = none := rfl
    simp [h.ne_dot, component?_plain h, pieces, Text.pieces, isAbsolute, he, hempty]
  · have hrest := filterMap_pieces (f := component?) rfl (component?_plain h) hp
    rw [components, components, hj, habs]
    rcases hp with hp | hp <;>
    · rw [hp] at hrest ⊢
      simp only [hrest, List.tail_cons, List.append_assoc]

/-- Plain names give one path in a folder only if they are the same. -/
theorem sameAs_join {other : String} (h : IsPlain name.toList) (ho : IsPlain other.toList) :
    (p.join name).sameAs (p.join other) ↔ name = other := by
  rw [sameAs, components_join p h, components_join p ho, beq_iff_eq, List.append_cancel_left_eq]
  simp

theorem startOf_join (h : IsPlain name.toList) (folder : Location) :
    Disk.startOf (p.join name).text folder = Disk.startOf p.text folder := by
  unfold Disk.startOf
  rcases join_cases p h with ⟨hempty, hj⟩ | ⟨a, ha, hj⟩
  · rw [hj, hempty, if_neg (head?_plain h)]
    rfl
  · rw [hj]
    rcases ha with ha | ⟨ha, hne⟩
    · rw [ha]; cases a <;> rfl
    · rw [ha]
      obtain ⟨c, a, rfl⟩ := List.exists_cons_of_ne_nil hne
      rfl

theorem endsInSeparator_join (h : IsPlain name.toList) :
    Disk.endsInSeparator (p.join name).text = false := by
  have hlast : ∀ b : List Char, (b ++ name.toList).getLast? ≠ some '/' := fun b hb => by
    rw [List.getLast?_append] at hb
    cases hn : name.toList.getLast? with
    | none => exact h.ne_nil (List.getLast?_eq_none_iff.mp hn)
    | some c =>
      rw [hn] at hb
      cases hb
      exact h.not_slash (List.mem_of_getLast? hn)
  unfold Disk.endsInSeparator
  rcases join_cases p h with ⟨-, hj⟩ | ⟨a, -, hj⟩
  · rw [hj]
    simpa using hlast []
  · rw [hj]
    simpa using hlast (a ++ ['/'])

theorem join_text_ne (h : IsPlain name.toList) : (p.join name).text ≠ "" := by
  intro he
  rcases join_cases p h with ⟨-, hj⟩ | ⟨a, -, hj⟩
  · rw [hj] at he
    exact h.ne_nil (by simp [show name = "" from he])
  · rw [he] at hj
    simp at hj

theorem fileName?_plain (h : IsPlain name.toList) : (⟨name⟩ : Path).fileName? = some name := by
  have hj : (⟨""⟩ : Path).join name = ⟨name⟩ := by rw [join, if_pos (Or.inr rfl)]
  have hc := components_join ⟨""⟩ h
  rw [hj] at hc
  simp [fileName?, hc]

end Path

/-! ### Numbered names and staging paths -/

namespace FileName

variable {name : String}

theorem isDigit_clean {c : Char} (h : c.isDigit) :
    isSeparator c = false ∧ Text.isControl c = false := by
  simp only [Char.isDigit, ge_iff_le, Bool.and_eq_true, decide_eq_true_eq, UInt32.le_iff_toNat_le]
    at h
  have hlo : 48 ≤ c.toNat := h.1
  have hhi : c.toNat ≤ 57 := h.2
  constructor
  · simp only [isSeparator, Bool.or_eq_false_iff, beq_eq_false_iff_ne, ne_eq]
    constructor <;> rintro rfl <;> revert hlo hhi <;> decide
  · simp only [Text.isControl, Bool.or_eq_false_iff, Bool.and_eq_false_iff, decide_eq_false_iff_not]
    omega

theorem digits_clean (n : Nat) :
    ∀ c ∈ Nat.toDigits 10 n, isSeparator c = false ∧ Text.isControl c = false := fun _ hc =>
  isDigit_clean (Nat.isDigit_of_mem_toDigits (by decide) (by decide) hc)

/-- A plain name is numbered before its extension, or at its end. -/
theorem numbered_cases (h : IsPlain name.toList) (n : Nat) :
    (∃ stem extension, name.toList = stem ++ '.' :: extension ∧
        splitName name.toList = (stem, some extension) ∧
        (numbered name n).toList = stem ++ '_' :: (Nat.toDigits 10 n ++ '.' :: extension)) ∨
      (∃ stem, splitName name.toList = (stem, none) ∧
        (numbered name n).toList = name.toList ++ '_' :: Nat.toDigits 10 n) := by
  unfold numbered
  rw [Path.fileName?_plain h]
  cases hs : splitName name.toList with
  | mk stem extension =>
    cases extension with
    | some extension =>
      exact Or.inl ⟨stem, extension, splitName_some hs, rfl, by simp [hs]⟩
    | none => exact Or.inr ⟨stem, rfl, by simp [hs]⟩

/-- **Numbered names are plain.** -/
theorem plain_numbered (h : IsPlain name.toList) (n : Nat) : IsPlain (numbered name n).toList := by
  have hdigits := digits_clean n
  rcases numbered_cases h n with ⟨stem, extension, hname, -, hn⟩ | ⟨stem, -, hn⟩
  · have hclean := h.clean
    rw [hname] at hclean
    simp only [List.mem_append, List.mem_cons] at hclean
    rw [hn]
    refine .of_mem (c := '_') (by simp) (by decide) fun c hc => ?_
    simp only [List.mem_append, List.mem_cons] at hc
    rcases hc with hc | rfl | hc | hc | hc
    · exact hclean c (Or.inl hc)
    · decide
    · exact hdigits c hc
    · exact hclean c (Or.inr (Or.inl hc))
    · exact hclean c (Or.inr (Or.inr hc))
  · rw [hn]
    refine .of_mem (c := '_') (by simp) (by decide) fun c hc => ?_
    simp only [List.mem_append, List.mem_cons] at hc
    rcases hc with hc | rfl | hc
    · exact h.clean c hc
    · decide
    · exact hdigits c hc

theorem plain_stagingSuffix : IsPlain stagingSuffix.toList where
  ne_nil := by decide
  ne_dot := by decide
  ne_dots := by decide
  clean := clean_of_all (by decide)

theorem plain_staged (h : IsPlain name.toList) : IsPlain (name ++ stagingSuffix).toList := by
  rw [String.toList_append]
  exact h.append plain_stagingSuffix (c := 'p') (by decide) (by decide)

/-- The staging path of an entry of a folder is that of the name with the staging suffix. -/
theorem stagingPath_join (folder : Path) (h : IsPlain name.toList) :
    stagingPath (folder.join name) = folder.join (name ++ stagingSuffix) := by
  have hhead : (name ++ stagingSuffix).toList.head? ≠ some '/' := Path.head?_plain (plain_staged h)
  unfold stagingPath Path.addSuffix Path.join
  by_cases hempty : folder.text = ""
  · rw [if_pos (Or.inr hempty), if_pos (Or.inr hempty)]
  · rw [if_neg (not_or.mpr ⟨Path.head?_plain h, hempty⟩), if_neg (not_or.mpr ⟨hhead, hempty⟩)]
    split <;> simp only [String.append_assoc]

theorem staged_ne (name : String) : name ++ stagingSuffix ≠ name := by
  intro h
  have hlen := congrArg (fun s => s.toList.length) h
  simp [stagingSuffix] at hlen

end FileName

/-- The paths of a transfer are those of a plain name in a folder: the name itself, and the name
with the staging suffix. -/
structure Transfer.LiesIn (t : Transfer) (folder : Path) (name : String) : Prop where
  plain : IsPlain name.toList
  final : t.finalPath = folder.join name
  staging : t.stagingPath = folder.join (name ++ FileName.stagingSuffix)

theorem Transfer.LiesIn.finalPath_sameAs {t : Transfer} {folder : Path} {name other : String}
    (h : t.LiesIn folder name) (ho : IsPlain other.toList) :
    t.finalPath.sameAs (folder.join other) ↔ name = other := by
  rw [h.final, Path.sameAs_join folder h.plain ho]

theorem Transfer.LiesIn.stagingPath_sameAs {t : Transfer} {folder : Path} {name other : String}
    (h : t.LiesIn folder name) (ho : IsPlain other.toList) :
    t.stagingPath.sameAs (folder.join other) ↔ name ++ FileName.stagingSuffix = other := by
  rw [h.staging, Path.sameAs_join folder (FileName.plain_staged h.plain) ho]

theorem exists_candidate (claims : Claims) (folder : Path) (name : String) (fuel n : Nat) :
    ∃ k, leastFreeFrom claims folder name fuel n = candidate folder name k := by
  induction fuel generalizing n with
  | zero => exact ⟨n, rfl⟩
  | succ fuel ih =>
    unfold leastFreeFrom
    split
    · exact ⟨n, rfl⟩
    · exact ih (n + 1)

/-- Every try is a plain name in the folder. -/
theorem exists_candidate_join (folder : Path) {name : String} (h : IsPlain name.toList) (k : Nat) :
    ∃ tried, IsPlain tried.toList ∧ candidate folder name k = folder.join tried := by
  unfold candidate
  split
  · exact ⟨name, h, rfl⟩
  · exact ⟨_, FileName.plain_numbered h k, rfl⟩

/-- Where an offered file will stand tells where it is staged. -/
theorem Transfer.ofOffer_liesIn {fileId : String} {offer : FileOffer} {folder : Path}
    {claims : Claims} {name : String} (hplain : IsPlain name.toList)
    (hfinal : (ofOffer fileId offer folder claims).finalPath = folder.join name) :
    (ofOffer fileId offer folder claims).LiesIn folder name := by
  refine ⟨hplain, hfinal, ?_⟩
  rw [← FileName.stagingPath_join folder hplain, ← hfinal]
  rfl

/-- **Offered files stay in their folder.** -/
theorem Transfer.exists_liesIn (fileId : String) (offer : FileOffer) (folder : Path)
    (claims : Claims) :
    ∃ name, (Transfer.ofOffer fileId offer folder claims).LiesIn folder name := by
  obtain ⟨k, hk⟩ := exists_candidate claims folder
    (FileName.sanitize (declaredNameOf fileId offer)) (2 * claims.length) 0
  obtain ⟨name, hplain, hname⟩ := exists_candidate_join folder
    (FileName.plain_sanitize (declaredNameOf fileId offer)) k
  exact ⟨name, ofOffer_liesIn hplain (hk.trans hname)⟩

end FileReceiver
