import Mastership.CommandLine.Directory

namespace Mastership.CommandLine.Directory

theorem not_mem_of_mem_splitOn {c : Char} {cs xs : List Char} (h : xs ∈ cs.splitOn c) : c ∉ xs := by
  induction cs generalizing xs with
  | nil => simp_all
  | cons x cs ih =>
    rw [List.splitOn_cons_eq_if_modifyHead] at h
    split at h
    · rcases List.mem_cons.mp h with rfl | h
      · simp
      · exact ih h
    · next hx =>
      obtain ⟨y, ys, hsplit⟩ := List.exists_cons_of_ne_nil (List.splitOn_ne_nil c cs)
      rw [hsplit, List.modifyHead_cons] at h
      rcases List.mem_cons.mp h with rfl | h
      · rw [List.mem_cons, not_or]
        exact ⟨fun he => hx (by simp [he]), ih (hsplit ▸ List.mem_cons_self)⟩
      · exact ih (hsplit ▸ List.mem_cons_of_mem y h)

/-- A name in a folder, which may not hold a slash. -/
def IsName (name : String) : Prop := '/' ∉ name.toList

theorem isName_of_mem_parts {name path : String} (h : name ∈ parts path) : IsName name := by
  rw [parts] at h
  obtain ⟨cs, hcs, rfl⟩ := List.mem_map.mp h
  rw [IsName, String.toList_ofList]
  exact not_mem_of_mem_splitOn hcs

/-- The path that joins names leads back to them. -/
theorem parts_join {names : List String} (h : ∀ name ∈ names, IsName name) (hne : names ≠ []) :
    parts (join names) = names := by
  have hsplit : (['/'].intercalate (names.map String.toList)).splitOn '/' =
      names.map String.toList := by
    apply List.splitOn_intercalate
    · simpa [IsName] using h
    · simpa using hne
  rw [parts, join, String.toList_intercalate]
  change ((['/'].intercalate (names.map String.toList)).splitOn '/').map String.ofList = names
  rw [hsplit, List.map_map]
  simp [Function.comp_def]

variable {d d' : Directory} {here ps names : List String} {path content : String}

/-- The names that a path leads to are its own, or those of the folder that it starts from. -/
theorem mem_of_follow (h : d.follow here ps = some names) {name : String} (hn : name ∈ names) :
    name ∈ here ∨ name ∈ ps := by
  fun_induction d.follow here ps with
  | case1 | case2 | case5 => exact .inl (Option.some.inj h ▸ hn)
  | case3 | case6 | case9 | case12 => cases h
  | case4 => exact .inl ((List.dropLast_subset _) (Option.some.inj h ▸ hn))
  | case7 here last =>
    cases h
    simpa using hn
  | case8 here name' next rest _ ih => exact (ih h).imp id (List.mem_cons_of_mem _)
  | case10 here next rest _ _ ih =>
    exact (ih h).imp (fun hn => List.dropLast_subset _ hn) (List.mem_cons_of_mem _)
  | case11 here name' next rest _ _ _ ih =>
    rcases ih h with hn | hn
    · rcases List.mem_append.mp hn with hn | hn
      · exact .inl hn
      · exact .inr (List.mem_singleton.mp hn ▸ List.mem_cons_self)
    · exact .inr (List.mem_cons_of_mem _ hn)

/-- What can be reached in a directory can be reached in one that has all its folders. -/
theorem follow_mono (hf : ∀ names, d.isFolder names = true → d'.isFolder names = true)
    (h : d.follow here ps = some names) : d'.follow here ps = some names := by
  fun_induction d.follow here ps with
  | case1 | case2 => exact h
  | case3 | case6 | case9 | case12 => cases h
  | case4 here hne _ => simpa [follow, hne] using h
  | case5 here hfolder _ _ => simpa [follow, hf _ hfolder] using h
  | case7 here last h₁ h₂ h₃ => simpa [follow, h₁, h₂, h₃] using h
  | case8 here name next rest hname ih =>
    rw [follow, if_pos hname]
    exact ih h
  | case10 here next rest hne hname ih =>
    rw [follow, if_neg hname, if_pos rfl, if_neg hne]
    exact ih h
  | case11 here name next rest hname hup hfolder ih =>
    rw [follow, if_neg hname, if_neg hup, if_pos (hf _ hfolder)]
    exact ih h

theorem isName_of_resolve (h : d.resolve path = some names) {name : String} (hn : name ∈ names) :
    IsName name := by
  unfold resolve at h
  split at h
  · cases h
  · rcases mem_of_follow h hn with hn | hn
    · cases hn
    · exact isName_of_mem_parts hn

/-- The directory with one file more, or with another content of it. -/
def put (d : Directory) (file content : String) : Directory := ⟨d.files.insert file content⟩

theorem isFolder_put (file content : String) (h : d.isFolder names = true) :
    (d.put file content).isFolder names = true := by
  unfold isFolder at h ⊢
  rw [Bool.or_eq_true] at h ⊢
  refine h.imp id fun h => ?_
  obtain ⟨file', hfile', hprefix⟩ := List.any_eq_true.mp h
  refine List.any_eq_true.mpr ⟨file', ?_, hprefix⟩
  rw [Table.mem_keys] at hfile' ⊢
  rw [put, Table.get?_insert]
  split
  · rfl
  · exact hfile'

/-- A new file makes no folder of its own path. -/
theorem isFolder_put_self (h : d.isFolder names = false) (hnames : ∀ name ∈ names, IsName name)
    (content : String) : (d.put (join names) content).isFolder names = false := by
  rw [isFolder, Bool.or_eq_false_iff, List.isEmpty_eq_false_iff] at h ⊢
  refine ⟨h.1, ?_⟩
  rw [List.any_eq_false] at h ⊢
  intro file hfile
  rw [Table.mem_keys, put, Table.get?_insert] at hfile
  split at hfile
  · next he =>
    rw [← he, parts_join hnames h.1]
    simp
  · exact h.2 file (Table.mem_keys.mpr hfile)

/-- What a path names can be written unless it is a folder. -/
theorem write_eq_some (h : d.write path content = some d') : ∃ names,
    d.resolve path = some names ∧ d.isFolder names = false ∧ d' = d.put (join names) content := by
  unfold write at h
  split at h
  · cases h
  · next names hnames =>
    split at h
    · cases h
    · next hfolder =>
      cases h
      exact ⟨names, hnames, Bool.eq_false_iff.mpr hfolder, rfl⟩

theorem write_of_resolve (h : d.resolve path = some names) (hfolder : d.isFolder names = false)
    (content : String) : d.write path content = some (d.put (join names) content) := by
  rw [write, h]
  dsimp only
  rw [hfolder]
  rfl

/-- One file is new, or has a new content, and is what a path leads to. All others are as before. -/
structure Wrote (d d' : Directory) (path content : String) : Prop where
  read : d'.read path = .text content
  others : ∃ file, d'.files.get? file = some content ∧
    ∀ other, other ≠ file → d'.files.get? other = d.files.get? other

theorem wrote_of_write (h : d.write path content = some d') : d.Wrote d' path content := by
  obtain ⟨names, hnames, hfolder, rfl⟩ := write_eq_some h
  have hresolve : (d.put (join names) content).resolve path = some names := by
    unfold resolve at hnames ⊢
    split at hnames
    · cases hnames
    · next hp =>
      rw [if_neg hp]
      exact follow_mono (fun _ => isFolder_put _ _) hnames
  have hstored : (d.put (join names) content).files.get? (join names) = some content :=
    Table.get?_insert_self _ _ _
  refine ⟨?_, join names, hstored, fun other ho => Table.get?_insert_of_ne _ _ ho.symm⟩
  rw [read, hresolve]
  dsimp only
  rw [isFolder_put_self hfolder (fun _ => isName_of_resolve hnames), if_neg (by simp), hstored]

end Mastership.CommandLine.Directory
