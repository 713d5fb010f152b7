import MetadataClient.FileTree
import Mathlib.Tactic.Common

/-! Files that are read as they were saved. A file can be saved together with the
directories on the way to it, unless something else stands in its way. -/
namespace MetadataClient.FileTree

variable {tree after : FileTree} {path : Path} {place : Path} {name : String} {text : String}

theorem locate_cons_iff : tree.locate (name :: path) = .ok place ↔
    ∃ above, tree.enter path = .ok above ∧ step above name = .ok place := by
  rw [locate]
  cases tree.enter path with
  | error cause => simp [Except.bind]
  | ok above => simp [Except.bind]

theorem enter_cons_iff : tree.enter (name :: path) = .ok place ↔
    tree.locate (name :: path) = .ok place ∧ tree.find? place = some .directory := by
  rw [enter, locate]
  cases (tree.enter path).bind (step · name) with
  | error cause => simp [Except.bind]
  | ok here =>
    cases entry : tree.find? here with
    | none =>
      simp only [Except.bind, entry, Except.ok.injEq, reduceCtorEq, false_iff, not_and]
      rintro rfl
      simp [entry]
    | some kind =>
      cases kind with
      | directory =>
        simp only [Except.bind, entry, Except.ok.injEq, iff_self_and]
        rintro rfl
        exact entry
      | file text =>
        simp only [Except.bind, entry, Except.ok.injEq, reduceCtorEq, false_iff, not_and]
        rintro rfl
        simp [entry]

/-! ## Reading what was written -/

/-- A path does not lead through a place where there is no directory yet, whatever is put
there. -/
theorem enter_insert (below : place ≠ []) (free : tree.find? place ≠ some .directory)
    (entry : FileEntry) {directory : Path} (entered : tree.enter path = .ok directory) :
    (tree.insert place entry).enter path = .ok directory := by
  induction path generalizing directory with
  | nil => exact entered
  | cons name path ih =>
    obtain ⟨located, found⟩ := enter_cons_iff.mp entered
    obtain ⟨above, entered, stepped⟩ := locate_cons_iff.mp located
    have other : place ≠ directory := by
      rintro rfl
      exact free found
    apply enter_cons_iff.mpr
    rw [find?_insert _ _ _ _ below, if_neg other]
    exact ⟨locate_cons_iff.mpr ⟨above, ih entered, stepped⟩, found⟩

theorem locate_insert (below : place ≠ []) (free : tree.find? place ≠ some .directory)
    (entry : FileEntry) {target : Path} (located : tree.locate path = .ok target) :
    (tree.insert place entry).locate path = .ok target := by
  cases path with
  | nil => exact located
  | cons name path =>
    obtain ⟨above, entered, stepped⟩ := locate_cons_iff.mp located
    exact locate_cons_iff.mpr ⟨above, enter_insert below free entry entered, stepped⟩

theorem read_write (written : tree.write path text = .ok after) : after.read path = .ok text := by
  rw [write.eq_def] at written
  split at written
  next names =>
    cases found : tree.enter names.tail with
    | error cause =>
      rw [found] at written
      cases written
    | ok above =>
      rw [found] at written
      cases written
  next =>
    cases located : tree.locate path with
    | error cause =>
      simp only [located] at written
      cases written
    | ok place =>
      simp only [located] at written
      split at written
      · cases written
      next free =>
        cases written
        have below : place ≠ [] := by
          rintro rfl
          exact free rfl
        rw [read, locate_insert below free _ located]
        simp only [find?_insert _ _ _ _ below, if_true]

theorem attempt_ok_iff {change : Except FileError FileTree} :
    tree.attempt change = (.ok (), after) ↔ change = .ok after := by
  cases change with
  | ok changed => simp [attempt]
  | error cause => simp [attempt]

theorem read_save (saved : tree.save path text = (.ok (), after)) : after.read path = .ok text := by
  rw [save] at saved
  rcases made : tree.makeDirectories path.parent with ⟨cause | _, between⟩
  · simp [made] at saved
  · simp only [made] at saved
    exact read_write (attempt_ok_iff.mp saved)

/-! ## Nothing in the way -/

structure Ordinary (name : String) : Prop where
  moves : Path.stays name = false
  down : name ≠ ".."
  short : name.utf8ByteSize ≤ nameLimit

instance (name : String) : Decidable (Ordinary name) :=
  decidable_of_iff
    (Path.stays name = false ∧ name ≠ ".." ∧ name.utf8ByteSize ≤ nameLimit)
    ⟨fun ⟨moves, down, short⟩ => ⟨moves, down, short⟩,
      fun ⟨moves, down, short⟩ => ⟨moves, down, short⟩⟩

theorem step_ordinary (ordinary : Ordinary name) (directory : Path) :
    step directory name = .ok (name :: directory) := by
  obtain ⟨moves, down, short⟩ := ordinary
  rw [step, moves, if_neg Bool.false_ne_true, if_neg down, if_neg (Nat.not_lt_of_le short)]

/-- On the way down there are directories, or nothing yet. -/
def Clear (tree : FileTree) : Path → Prop
  | [] => True
  | name :: parent => Ordinary name ∧ (∀ text, tree.find? (name :: parent) ≠ some (.file text)) ∧
      tree.Clear parent

/-- A file can be made here, or another text be put in its place. -/
def Admits (tree : FileTree) : Path → Prop
  | [] => False
  | name :: parent => Ordinary name ∧ tree.find? (name :: parent) ≠ some .directory ∧
      tree.Clear parent

theorem find?_empty (below : path ≠ []) : empty.find? path = none := by
  rw [find?, if_neg below]
  rfl

theorem clear_empty (ordinary : ∀ name ∈ path, Ordinary name) : empty.Clear path := by
  induction path with
  | nil => trivial
  | cons name path ih =>
    rw [List.forall_mem_cons] at ordinary
    refine ⟨ordinary.1, ?_, ih ordinary.2⟩
    simp [find?_empty]

theorem admits_empty (named : path ≠ []) (ordinary : ∀ name ∈ path, Ordinary name) :
    empty.Admits path := by
  cases path with
  | nil => exact absurd rfl named
  | cons name path =>
    rw [List.forall_mem_cons] at ordinary
    refine ⟨ordinary.1, ?_, clear_empty ordinary.2⟩
    simp [find?_empty]

theorem enter_clear (clear : tree.Clear path) :
    tree.enter path = .ok path ∨ tree.enter path = .error .notFound := by
  induction path with
  | nil => exact .inl rfl
  | cons name path ih =>
    obtain ⟨ordinary, noFile, clear⟩ := clear
    rcases ih clear with entered | missing
    · rw [enter, entered]
      simp only [Except.bind, step_ordinary ordinary]
      cases entry : tree.find? (name :: path) with
      | none => exact .inr rfl
      | some kind =>
        cases kind with
        | directory => exact .inl rfl
        | file text => exact absurd entry (noFile text)
    · right
      rw [enter, missing]
      rfl

/-- All directories of the path are there, and all else is as before. -/
structure Makes (tree : FileTree) (path : Path) (after : FileTree) : Prop where
  entered : after.enter path = .ok path
  kept (place : Path) (longer : path.length < place.length) : after.find? place = tree.find? place

theorem ensureDirectory_makes (ordinary : Ordinary name)
    (noFile : ∀ text, tree.find? (name :: path) ≠ some (.file text))
    (entered : tree.enter path = .ok path) :
    ∃ after, tree.ensureDirectory (name :: path) = .ok after ∧ tree.Makes (name :: path) after := by
  have located : tree.locate (name :: path) = .ok (name :: path) :=
    locate_cons_iff.mpr ⟨path, entered, step_ordinary ordinary path⟩
  cases entry : tree.find? (name :: path) with
  | none =>
    refine ⟨tree.insert (name :: path) .directory, ?_, ?_, ?_⟩
    · rw [ensureDirectory, makeDirectory, located]
      simp only [entry]
    · have free : tree.find? (name :: path) ≠ some .directory := by simp [entry]
      have below : name :: path ≠ [] := List.cons_ne_nil _ _
      apply enter_cons_iff.mpr
      rw [find?_insert _ _ _ _ below, if_pos rfl]
      exact ⟨locate_insert below free _ located, rfl⟩
    · intro place longer
      rw [find?_insert _ _ _ _ (List.cons_ne_nil _ _), if_neg]
      rintro rfl
      exact Nat.lt_irrefl _ longer
  | some kind =>
    cases kind with
    | directory =>
      have there : tree.enter (name :: path) = .ok (name :: path) :=
        enter_cons_iff.mpr ⟨located, entry⟩
      refine ⟨tree, ?_, there, fun _ _ => rfl⟩
      rw [ensureDirectory, makeDirectory, located]
      simp only [entry, isDirectory, there]
      rfl
    | file text => exact absurd entry (noFile text)

/-- Directories that are missing are made from the outermost on. -/
theorem makeDirectories_makes (clear : tree.Clear path) :
    ∃ after, tree.makeDirectories path = (.ok (), after) ∧ tree.Makes path after := by
  induction path with
  | nil => exact ⟨tree, rfl, rfl, fun _ _ => rfl⟩
  | cons name path ih =>
    obtain ⟨ordinary, noFile, clear⟩ := clear
    rw [makeDirectories]
    rcases enter_clear clear with entered | missing
    · obtain ⟨after, ensured, makes⟩ := ensureDirectory_makes ordinary noFile entered
      refine ⟨after, ?_, makes⟩
      rw [ensured]
      rfl
    · have failed : tree.ensureDirectory (name :: path) = .error .notFound := by
        have unmade : tree.makeDirectory (name :: path) = .error .notFound := by
          rw [makeDirectory, locate, missing]
          rfl
        have noDirectory : tree.isDirectory (name :: path) = false := by
          rw [isDirectory, enter, missing]
          rfl
        rw [ensureDirectory, unmade]
        simp only [noDirectory, Bool.false_eq_true, if_false]
      obtain ⟨between, made, above⟩ := ih clear
      have noFile : ∀ text, between.find? (name :: path) ≠ some (.file text) := by
        rwa [above.kept _ (Nat.lt_succ_self _)]
      obtain ⟨after, ensured, makes⟩ := ensureDirectory_makes ordinary noFile above.entered
      refine ⟨after, ?_, makes.entered, ?_⟩
      · simp only [failed, made, ensured]
        rfl
      · intro place longer
        exact (makes.kept place longer).trans (above.kept place (Nat.lt_of_succ_lt longer))

/-- Where nothing is in the way a file is saved, whatever text. -/
theorem save_admits (admits : tree.Admits path) (text : String) :
    ∃ after, tree.save path text = (.ok (), after) := by
  cases path with
  | nil => exact absurd admits id
  | cons name parent =>
    obtain ⟨ordinary, free, clear⟩ := admits
    obtain ⟨between, made, makes⟩ := makeDirectories_makes clear
    have above : Path.parent (name :: parent) = parent := by
      rw [Path.parent, List.dropWhile_cons_of_neg (Bool.eq_false_iff.mp ordinary.moves)]
      rfl
    have located : between.locate (name :: parent) = .ok (name :: parent) :=
      locate_cons_iff.mpr ⟨parent, makes.entered, step_ordinary ordinary parent⟩
    have free : between.find? (name :: parent) ≠ some .directory := by
      rwa [makes.kept _ (Nat.lt_succ_self _)]
    refine ⟨between.insert (name :: parent) (.file text), ?_⟩
    simp only [save, above, made]
    apply attempt_ok_iff.mpr
    rw [write, located]
    · simp only [free, if_false]
    · rintro _ ⟨⟩
      exact absurd ordinary.moves (by decide)

end MetadataClient.FileTree
