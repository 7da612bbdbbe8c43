import CommentGrade.Files.Walk
import CommentGrade.Proofs.Files.Places
import Mathlib.Data.List.Sort
import Mathlib.Data.String.Basic

/-!
# The files below a directory

A walk lists the files that names lead to, and lists each of them once. The names of entries differ within a directory,
so that the path of a file leads back to it, its text is read as the same path, and the order of the names is an order
of the paths: what precedes another path is not that path.
-/
namespace CommentGrade

open CommentGrade.Path

namespace FileTree

section Order

/-- The order of files below a directory: its own files stand before those of its subdirectories, and both are ordered
by name. -/
inductive Precedes : List String → List String → Prop
  | files {a b : String} : a < b → Precedes [a] [b]
  | deeper {a b : String} {bs : List String} : bs ≠ [] → Precedes [a] (b :: bs)
  | directories {a b : String} {as bs : List String} : as ≠ [] → bs ≠ [] → a < b → Precedes (a :: as) (b :: bs)
  | within {a : String} {as bs : List String} : Precedes as bs → Precedes (a :: as) (a :: bs)

theorem Precedes.ne {as bs : List String} (h : Precedes as bs) : as ≠ bs := by
  induction h with
  | files hlt => simpa using hlt.ne
  | deeper hbs => simp [hbs.symm]
  | directories _ _ hlt => simp [hlt.ne]
  | within _ ih => simpa using ih

/-- Two paths below the same one, in the order of their names. -/
def PrecedesBelow (place f g : Path) : Prop := ∃ as bs, f = place.below as ∧ g = place.below bs ∧ Precedes as bs

theorem PrecedesBelow.ne {place f g : Path} (h : PrecedesBelow place f g) : f ≠ g := by
  obtain ⟨as, bs, rfl, rfl, hprecedes⟩ := h
  exact place.below_injective.ne hprecedes.ne

end Order

section Entries

variable {es : List (String × FileTree)}

theorem mem_fileNames_iff {name : String} : name ∈ fileNames es ↔ ∃ bs, (name, .file bs) ∈ es := by
  induction es with
  | nil => simp [fileNames]
  | cons e es ih =>
    obtain ⟨n, t⟩ := e
    cases t <;> simp [fileNames, ih, exists_or, eq_comm]

theorem fileNames_sublist (es : List (String × FileTree)) : (fileNames es).Sublist (es.map (·.1)) := by
  induction es with
  | nil => exact .slnil
  | cons e es ih =>
    obtain ⟨n, t⟩ := e
    cases t with
    | file bs => exact ih.cons_cons n
    | directory es' => exact ih.cons n

/-- Whether an entry is a directory that is entered. -/
def isEntered : String × FileTree → Bool
  | (_, .file _) => false
  | (name, .directory _) => !skippedNames.contains name

theorem subdirectories_eq (place : Path) (es : List (String × FileTree)) :
    subdirectories place es = (es.filter isEntered).map fun e => (e.1, filesBelow (place.child e.1) e.2) := by
  induction es with
  | nil => simp [subdirectories]
  | cons e es ih =>
    obtain ⟨n, t⟩ := e
    cases t with
    | file bs => simpa [subdirectories, isEntered] using ih
    | directory es' =>
      by_cases hskip : n ∈ skippedNames <;> simp [subdirectories, isEntered, hskip, ih]

theorem byName_map {α β : Type} (g : String × α → β) (xs : List (String × α)) :
    byName (xs.map fun e => (e.1, g e)) = (byName xs).map fun e => (e.1, g e) := by
  unfold byName
  apply Eq.symm
  apply List.map_mergeSort
  exact fun _ _ _ _ => rfl

theorem names_byName {α : Type} (xs : List (String × α)) :
    (byName xs).map (·.1) = (xs.map (·.1)).mergeSort fun a b => decide (a ≤ b) := by
  unfold byName
  apply List.map_mergeSort
  exact fun _ _ _ _ => rfl

theorem filesBelow_directory (place : Path) (es : List (String × FileTree)) :
    filesBelow place (.directory es) =
      ((fileNames es).mergeSort fun a b => decide (a ≤ b)).map place.child ++
        (byName (es.filter isEntered)).flatMap fun e => filesBelow (place.child e.1) e.2 := by
  rw [filesBelow, subdirectories_eq, byName_map, List.flatMap_map]

theorem mem_byName_iff {e : String × FileTree} : e ∈ byName (es.filter isEntered) ↔ e ∈ es ∧ isEntered e = true := by
  rw [byName, List.mem_mergeSort, List.mem_filter]

theorem pairwise_lt_of_nodup {names : List String} (h : names.Nodup) :
    (names.mergeSort fun a b => decide (a ≤ b)).Pairwise (· < ·) := by
  have hle := List.pairwise_mergeSort' (· ≤ ·) names
  have hnodup := (List.mergeSort_perm names fun a b => decide (a ≤ b)).nodup_iff.mpr h
  exact hle.imp₂ (fun _ _ => lt_of_le_of_ne) hnodup

theorem pairwise_fileNames (h : (es.map (·.1)).Nodup) :
    ((fileNames es).mergeSort fun a b => decide (a ≤ b)).Pairwise (· < ·) :=
  pairwise_lt_of_nodup (h.sublist (fileNames_sublist es))

theorem pairwise_byName (h : (es.map (·.1)).Nodup) :
    (byName (es.filter isEntered)).Pairwise fun a b => a.1 < b.1 := by
  have hentered : ((es.filter isEntered).map (·.1)).Nodup := h.sublist (List.filter_sublist.map Prod.fst)
  apply List.pairwise_map.mp
  rw [names_byName]
  exact pairwise_lt_of_nodup hentered

end Entries

section Below

variable {t : FileTree}

/-- Names lead to a file below a directory, and no directory between them is skipped. -/
def Enters (t : FileTree) (names : List String) : Prop :=
  names ≠ [] ∧ (∃ bs, t.LeadsTo names (.file bs)) ∧ ∀ d ∈ names.dropLast, d ∉ skippedNames

theorem enters_file {bs : List UInt8} {names : List String} : ¬(FileTree.file bs).Enters names := by
  rintro ⟨hne, ⟨_, h⟩, -⟩
  cases h
  exact hne rfl

theorem enters_directory {es : List (String × FileTree)} {names : List String} :
    (FileTree.directory es).Enters names ↔
      (∃ name ∈ fileNames es, names = [name]) ∨
        ∃ e ∈ es, isEntered e = true ∧ ∃ rest, e.2.Enters rest ∧ names = e.1 :: rest := by
  constructor
  · rintro ⟨-, ⟨bs, h⟩, hskip⟩
    cases h with
    | @down _ name t _ rest hmem hrest =>
      cases hrest with
      | here _ => exact .inl ⟨_, mem_fileNames_iff.mpr ⟨_, hmem⟩, rfl⟩
      | @down es' next u _ more hmem' hmore =>
        rw [List.dropLast_cons_of_ne_nil (List.cons_ne_nil _ _), List.forall_mem_cons] at hskip
        refine .inr ⟨_, hmem, ?_, _, ⟨List.cons_ne_nil _ _, ⟨_, .down hmem' hmore⟩, hskip.2⟩, rfl⟩
        simpa [isEntered] using hskip.1
  · rintro (⟨name, hname, rfl⟩ | ⟨⟨name, t⟩, hmem, hentered, rest, ⟨hne, ⟨bs, hrest⟩, hskip⟩, rfl⟩)
    · obtain ⟨bs, hmem⟩ := mem_fileNames_iff.mp hname
      exact ⟨List.cons_ne_nil _ _, ⟨bs, .down hmem (.here _)⟩, nofun⟩
    · refine ⟨List.cons_ne_nil _ _, ⟨bs, .down hmem hrest⟩, ?_⟩
      rw [List.dropLast_cons_of_ne_nil hne, List.forall_mem_cons]
      refine ⟨?_, hskip⟩
      cases t with
      | file bs =>
        cases hrest
        exact absurd rfl hne
      | directory es' => simpa [isEntered] using hentered

/-- The paths below a place are those that names lead to. -/
theorem mem_filesBelow_iff (ht : t.Proper) {place f : Path} :
    f ∈ filesBelow place t ↔ ∃ names, t.Enters names ∧ f = place.below names := by
  induction ht generalizing place with
  | file bs => simp [filesBelow, enters_file]
  | @directory es _ _ _ ih =>
    have hfiles : f ∈ ((fileNames es).mergeSort fun a b => decide (a ≤ b)).map place.child ↔
        ∃ names, (∃ name ∈ fileNames es, names = [name]) ∧ f = place.below names := by
      simp [child_eq_below, eq_comm]
    have hdirectories : f ∈ (byName (es.filter isEntered)).flatMap (fun e => filesBelow (place.child e.1) e.2) ↔
        ∃ names, (∃ e ∈ es, isEntered e = true ∧ ∃ rest, e.2.Enters rest ∧ names = e.1 :: rest) ∧
          f = place.below names := by
      rw [List.mem_flatMap]
      constructor
      · rintro ⟨e, he, hf⟩
        obtain ⟨hmem, hentered⟩ := mem_byName_iff.mp he
        obtain ⟨rest, hrest, rfl⟩ := (ih e hmem).mp hf
        exact ⟨_, ⟨e, hmem, hentered, rest, hrest, rfl⟩, below_child place e.1 rest⟩
      · rintro ⟨_, ⟨e, hmem, hentered, rest, hrest, rfl⟩, rfl⟩
        exact ⟨e, mem_byName_iff.mpr ⟨hmem, hentered⟩, (ih e hmem).mpr ⟨rest, hrest, (below_child place e.1 rest).symm⟩⟩
    rw [filesBelow_directory, List.mem_append, hfiles, hdirectories, ← exists_or]
    simp only [← or_and_right, enters_directory]

theorem pairwise_filesBelow (ht : t.Proper) (place : Path) :
    (filesBelow place t).Pairwise (PrecedesBelow place) := by
  induction ht generalizing place with
  | file bs => simp [filesBelow]
  | @directory es hnodup _ hes ih =>
    have hbelow : ∀ e ∈ byName (es.filter isEntered), ∀ f ∈ filesBelow (place.child e.1) e.2,
        ∃ names, names ≠ [] ∧ f = place.below (e.1 :: names) := by
      intro e he f hf
      obtain ⟨names, ⟨hne, -⟩, rfl⟩ := (mem_filesBelow_iff (hes e (mem_byName_iff.mp he).1)).mp hf
      exact ⟨names, hne, below_child place e.1 names⟩
    rw [filesBelow_directory, List.pairwise_append]
    refine ⟨?_, ?_, ?_⟩
    · apply List.pairwise_map.mpr
      exact (pairwise_fileNames hnodup).imp fun hlt => ⟨_, _, rfl, rfl, .files hlt⟩
    · rw [List.pairwise_flatMap]
      constructor
      · intro e he
        refine (ih e (mem_byName_iff.mp he).1 (place.child e.1)).imp ?_
        rintro _ _ ⟨as, bs, rfl, rfl, hprecedes⟩
        exact ⟨_, _, below_child place e.1 as, below_child place e.1 bs, .within hprecedes⟩
      · refine (pairwise_byName hnodup).imp_of_mem ?_
        intro a b ha hb hlt f hf g hg
        obtain ⟨as, has, rfl⟩ := hbelow a ha f hf
        obtain ⟨bs, hbs, rfl⟩ := hbelow b hb g hg
        exact ⟨_, _, rfl, rfl, .directories has hbs hlt⟩
    · intro f hf g hg
      obtain ⟨name, -, rfl⟩ := List.mem_map.mp hf
      obtain ⟨e, he, hg⟩ := List.mem_flatMap.mp hg
      obtain ⟨bs, hbs, rfl⟩ := hbelow e he g hg
      exact ⟨_, _, child_eq_below place name, rfl, .deeper hbs⟩

end Below

section Texts

/-- The language of a file follows from its name, however its path is given. -/
theorem ofPath?_text {f : Path} (h : f.Plain) : Language.ofPath? f.text = Language.ofFileName? f.name := by
  rw [Language.ofPath?, ofString_text h]

theorem plain_of_enters {t : FileTree} (ht : t.Proper) {names : List String} (h : t.Enters names) {p : Path}
    (hp : p.Plain) : (p.below names).Plain := by
  obtain ⟨-, ⟨bs, hleads⟩, -⟩ := h
  exact hp.below fun n hn => (ht.isName hleads n hn).1

end Texts

end FileTree

namespace Disk

open FileTree

variable {d : Disk}

/-- The files that a path stands for on a disk. A directory stands for all files below it that names lead to without a
skipped directory on the way and, where languages are detected, that have one. Each is listed once and in order. -/
inductive Lists (d : Disk) (detect : Bool) (p : Path) : List Path → Prop
  | missing : (∀ t, ¬d.Holds p t) → Lists d detect p []
  | file {bs : List UInt8} : d.Holds p (.file bs) → Lists d detect p [p]
  | directory {es : List (String × FileTree)} {fs : List Path} : d.Holds p (.directory es) →
      (∀ f, f ∈ fs ↔ ∃ names, (FileTree.directory es).Enters names ∧ f = p.below names ∧
        (detect = true → (Language.ofPath? f.text).isSome = true)) →
      fs.Pairwise (PrecedesBelow p) → fs.Nodup → (∀ f ∈ fs, ∃ bs, d.Holds (ofString f.text) (.file bs)) →
      Lists d detect p fs

theorem lists_filesAt (hd : d.tree.Proper) (detect : Bool) (path : String) :
    d.Lists detect (ofString path) (d.filesAt detect path) := by
  have hplain := plain_ofString path
  unfold filesAt
  generalize ofString path = p at hplain
  dsimp only
  split
  next h => exact .missing ((find?_eq_none_iff hd).mp h)
  next h => exact .file ((find?_eq_some_iff hd).mp h)
  next es h =>
    have hholds := (find?_eq_some_iff hd).mp h
    have ht := hholds.proper hd
    have hordered := (pairwise_filesBelow ht p).filter fun f => !detect || isDetectable f
    refine .directory hholds ?_ hordered (hordered.imp PrecedesBelow.ne) ?_
    · intro f
      rw [List.mem_filter, mem_filesBelow_iff ht]
      constructor
      · rintro ⟨⟨names, hnames, rfl⟩, hdetect⟩
        refine ⟨names, hnames, rfl, ?_⟩
        rintro rfl
        rwa [ofPath?_text (plain_of_enters ht hnames hplain)]
      · rintro ⟨names, hnames, rfl, hdetect⟩
        refine ⟨⟨names, hnames, rfl⟩, ?_⟩
        rw [ofPath?_text (plain_of_enters ht hnames hplain)] at hdetect
        cases detect with
        | false => rfl
        | true => exact hdetect rfl
    · intro f hf
      obtain ⟨names, hnames, rfl⟩ := (mem_filesBelow_iff ht).mp (List.mem_filter.mp hf).1
      rw [ofString_text (plain_of_enters ht hnames hplain)]
      obtain ⟨-, ⟨bs, hleads⟩, -⟩ := hnames
      exact ⟨bs, hholds.below hd hleads⟩

end Disk

end CommentGrade
