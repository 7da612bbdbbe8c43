import CommentGrade.Files.Tree
import CommentGrade.Proofs.Files.Paths

/-!
# What paths lead to

A path leads through the directories of a disk, one component after the other. Where it comes out is said without the
search for it: names go down to entries, two dots go up to the directory above, and from the top nowhere. The search
finds exactly what is there.
-/
namespace CommentGrade

open CommentGrade.Path

namespace FileTree

/-- The name of a file or a directory. -/
def IsName (s : String) : Prop := IsComponent s ∧ s ≠ ".."

/-- A tree as directories hold it: no two entries of a directory have the same name. -/
inductive Proper : FileTree → Prop
  | file (bs : List UInt8) : Proper (.file bs)
  | directory {es : List (String × FileTree)} : (es.map (·.1)).Nodup → (∀ e ∈ es, IsName e.1) →
      (∀ e ∈ es, Proper e.2) → Proper (.directory es)

/-- Names lead down from a tree to what is below it. -/
inductive LeadsTo : FileTree → List String → FileTree → Prop
  | here (t : FileTree) : LeadsTo t [] t
  | down {es : List (String × FileTree)} {name : String} {t u : FileTree} {names : List String} :
      (name, t) ∈ es → LeadsTo t names u → LeadsTo (.directory es) (name :: names) u

/-- Components lead from one place in a tree to another. A place is known by the names that lead to it from the top. -/
inductive Moves (tree : FileTree) : List String → List String → List String → Prop
  | stay (place : List String) : Moves tree place [] place
  | up {place there : List String} {es : List (String × FileTree)} {ps : List String} :
      tree.LeadsTo place (.directory es) → Moves tree place.dropLast ps there → Moves tree place (".." :: ps) there
  | down {place there : List String} {name : String} {t : FileTree} {ps : List String} : name ≠ ".." →
      tree.LeadsTo (place ++ [name]) t → Moves tree (place ++ [name]) ps there → Moves tree place (name :: ps) there

variable {t u v : FileTree} {es : List (String × FileTree)} {names more : List String}

section Trees

theorem proper_file (bs : List UInt8) : (FileTree.file bs).Proper := .file bs

theorem proper_directory_iff :
    (FileTree.directory es).Proper ↔ (es.map (·.1)).Nodup ∧ ∀ e ∈ es, IsName e.1 ∧ e.2.Proper := by
  constructor
  · intro h
    cases h with
    | directory hnodup hnames hes => exact ⟨hnodup, fun e he => ⟨hnames e he, hes e he⟩⟩
  · rintro ⟨hnodup, hes⟩
    exact .directory hnodup (fun e he => (hes e he).1) fun e he => (hes e he).2

theorem lookup_of_mem (h : (es.map (·.1)).Nodup) {name : String} (hmem : (name, t) ∈ es) :
    es.lookup name = some t := by
  induction es with
  | nil => cases hmem
  | cons e es ih =>
    rw [List.map_cons, List.nodup_cons] at h
    rcases List.mem_cons.mp hmem with rfl | hmem
    · exact List.lookup_cons_self
    · have hne : (name == e.1) = false := by
        rw [beq_eq_false_iff_ne]
        rintro rfl
        exact h.1 (List.mem_map_of_mem (f := (·.1)) hmem)
      rw [List.lookup_cons, hne]
      exact ih h.2 hmem

theorem mem_of_lookup {name : String} (h : es.lookup name = some t) : (name, t) ∈ es := by
  obtain ⟨before, behind, rfl, -⟩ := List.lookup_eq_some_iff.mp h
  exact List.mem_append_right before List.mem_cons_self

theorem leadsTo_nil : t.LeadsTo [] u ↔ t = u := by
  constructor
  · intro h
    cases h
    rfl
  · rintro rfl
    exact .here t

theorem leadsTo_cons {name : String} :
    t.LeadsTo (name :: names) u ↔ ∃ es next, t = .directory es ∧ (name, next) ∈ es ∧ next.LeadsTo names u := by
  constructor
  · intro h
    cases h with
    | down hmem hnext => exact ⟨_, _, rfl, hmem, hnext⟩
  · rintro ⟨es, next, rfl, hmem, hnext⟩
    exact .down hmem hnext

theorem leadsTo_append : t.LeadsTo (names ++ more) v ↔ ∃ u, t.LeadsTo names u ∧ u.LeadsTo more v := by
  induction names generalizing t with
  | nil => simp [leadsTo_nil]
  | cons name names ih =>
    simp only [List.cons_append, leadsTo_cons, ih]
    constructor
    · rintro ⟨es, next, rfl, hmem, u, hu, hv⟩
      exact ⟨u, ⟨es, next, rfl, hmem, hu⟩, hv⟩
    · rintro ⟨u, ⟨es, next, rfl, hmem, hu⟩, hv⟩
      exact ⟨es, next, rfl, hmem, u, hu, hv⟩

theorem Proper.unique (ht : t.Proper) (hu : t.LeadsTo names u) (hv : t.LeadsTo names v) : u = v := by
  induction hu with
  | here t => exact leadsTo_nil.mp hv
  | down hmem _ ih =>
    obtain ⟨hnodup, hes⟩ := proper_directory_iff.mp ht
    cases hv with
    | down hmem' hnext =>
      obtain rfl := Option.some.inj ((lookup_of_mem hnodup hmem).symm.trans (lookup_of_mem hnodup hmem'))
      exact ih (hes _ hmem).2 hnext

theorem Proper.leadsTo (ht : t.Proper) (h : t.LeadsTo names u) : u.Proper := by
  induction h with
  | here t => exact ht
  | down hmem _ ih => exact ih ((proper_directory_iff.mp ht).2 _ hmem).2

theorem Proper.isName (ht : t.Proper) (h : t.LeadsTo names u) : ∀ n ∈ names, IsName n := by
  induction h with
  | here t => nofun
  | down hmem _ ih =>
    obtain ⟨hname, hnext⟩ := (proper_directory_iff.mp ht).2 _ hmem
    exact List.forall_mem_cons.mpr ⟨hname, ih hnext⟩

theorem LeadsTo.above (h : t.LeadsTo (names ++ more) u) (hmore : more ≠ []) :
    ∃ es, t.LeadsTo names (.directory es) := by
  obtain ⟨above, habove, hbelow⟩ := leadsTo_append.mp h
  cases hbelow with
  | here _ => exact absurd rfl hmore
  | down _ _ => exact ⟨_, habove⟩

end Trees

section Moves

variable {tree : FileTree} {place here there : List String} {ps qs : List String}

theorem Moves.append (hps : tree.Moves place ps here) (hqs : tree.Moves here qs there) :
    tree.Moves place (ps ++ qs) there := by
  induction hps with
  | stay _ => exact hqs
  | up hdirectory _ ih => exact .up hdirectory (ih hqs)
  | down hname hdown _ ih => exact .down hname hdown (ih hqs)

theorem moves_names (hnames : ∀ n ∈ names, n ≠ "..") (h : tree.LeadsTo (place ++ names) u) :
    tree.Moves place names (place ++ names) := by
  induction names generalizing place with
  | nil =>
    rw [List.append_nil]
    exact .stay place
  | cons name names ih =>
    rw [List.forall_mem_cons] at hnames
    rw [List.append_cons] at h ⊢
    obtain ⟨next, hnext, -⟩ := leadsTo_append.mp h
    exact .down hnames.1 hnext (ih hnames.2 h)

/-- The places on the way to a directory are directories. -/
theorem Moves.exists_directory (h : tree.Moves place ps there) (hthere : tree.LeadsTo there (.directory es)) :
    ∃ es, tree.LeadsTo place (.directory es) := by
  cases h with
  | stay _ => exact ⟨es, hthere⟩
  | up hdirectory _ => exact ⟨_, hdirectory⟩
  | down _ hdown _ => exact hdown.above (List.cons_ne_nil _ _)

/-- Where components lead to is the place that is left of them without two dots. -/
theorem Moves.foldl_eq (h : tree.Moves place ps there) :
    ps.foldl (fun above q => if q = ".." then above.dropLast else above ++ [q]) place = there := by
  induction h with
  | stay _ => rfl
  | up _ _ ih => simpa using ih
  | down hname _ _ ih => simpa [hname] using ih

end Moves

section Descent

variable {tree here : FileTree} {place : List String} {above : List FileTree}

/-- The directories above a place, the innermost first, and what is at the place. -/
inductive Nested (tree : FileTree) : List String → List FileTree → FileTree → Prop
  | top : Nested tree [] [] tree
  | inside {place : List String} {above : List FileTree} {es : List (String × FileTree)} {name : String}
      {t : FileTree} : Nested tree place above (.directory es) → (name, t) ∈ es →
      Nested tree (place ++ [name]) (.directory es :: above) t

theorem Nested.leadsTo (h : tree.Nested place above here) : tree.LeadsTo place here := by
  induction h with
  | top => exact .here tree
  | inside _ hmem ih => exact leadsTo_append.mpr ⟨_, ih, .down hmem (.here _)⟩

theorem moves_cons_iff {p : String} {ps there : List String} (htree : tree.Proper)
    (hplace : tree.LeadsTo place (.directory es)) : tree.Moves place (p :: ps) there ↔
      if p = ".." then tree.Moves place.dropLast ps there
      else ∃ t, (p, t) ∈ es ∧ tree.Moves (place ++ [p]) ps there := by
  split_ifs with hup
  · subst hup
    constructor
    · intro h
      cases h with
      | up _ hnext => exact hnext
      | down hname _ _ => exact absurd rfl hname
    · exact .up hplace
  · constructor
    · intro h
      cases h with
      | up _ _ => exact absurd rfl hup
      | down _ hdown hnext =>
        obtain ⟨above, habove, hbelow⟩ := leadsTo_append.mp hdown
        obtain rfl := htree.unique habove hplace
        cases hbelow with
        | down hmem _ => exact ⟨_, hmem, hnext⟩
    · rintro ⟨t, hmem, hnext⟩
      exact .down hup (leadsTo_append.mpr ⟨_, hplace, .down hmem (.here t)⟩) hnext

theorem not_moves_cons {bs : List UInt8} {p : String} {ps there : List String} (htree : tree.Proper)
    (hplace : tree.LeadsTo place (.file bs)) : ¬tree.Moves place (p :: ps) there := by
  intro h
  cases h with
  | up hdirectory _ => cases htree.unique hdirectory hplace
  | down _ hdown _ =>
    obtain ⟨es, hes⟩ := hdown.above (List.cons_ne_nil _ _)
    cases htree.unique hes hplace

/-- The search comes to what is where components lead to. -/
theorem descend_eq_some_iff (htree : tree.Proper) {ps : List String} (h : tree.Nested place above here) :
    descend above here ps = some u ↔ ∃ there, tree.Moves place ps there ∧ tree.LeadsTo there u := by
  induction ps generalizing place above here with
  | nil =>
    rw [descend, Option.some.injEq]
    constructor
    · rintro rfl
      exact ⟨place, .stay place, h.leadsTo⟩
    · rintro ⟨there, hmoves, hu⟩
      cases hmoves
      exact htree.unique h.leadsTo hu
  | cons p ps ih =>
    cases here with
    | file bs => simp [descend, not_moves_cons htree h.leadsTo]
    | directory es =>
      simp only [moves_cons_iff htree h.leadsTo]
      by_cases hup : p = ".."
      · simp only [hup, if_true]
        cases h with
        | top => simpa [descend] using ih .top
        | inside habove _ => simpa [descend] using ih habove
      · simp only [hup, if_false]
        obtain ⟨hnodup, -⟩ := proper_directory_iff.mp (htree.leadsTo h.leadsTo)
        cases hlookup : es.lookup p with
        | none =>
          have hnone : ∀ t, (p, t) ∉ es := fun t hmem => nomatch hlookup.symm.trans (lookup_of_mem hnodup hmem)
          simp [descend, hup, hlookup, hnone]
        | some t =>
          have hmem := mem_of_lookup hlookup
          have hexists : ∃ t, (p, t) ∈ es := ⟨t, hmem⟩
          simpa [descend, hup, hlookup, hexists] using ih (.inside h hmem)

end Descent

end FileTree

namespace Disk

variable {d : Disk} {p : Path} {t u : FileTree}

/-- A path leads to something on a disk: from the top, or from the place of the program if it is relative. -/
def Holds (d : Disk) (p : Path) (t : FileTree) : Prop :=
  ∃ there, d.tree.Moves [] (p.absolute d.place) there ∧ d.tree.LeadsTo there t

theorem find?_eq_some_iff (hd : d.tree.Proper) : d.find? p = some t ↔ d.Holds p t :=
  FileTree.descend_eq_some_iff hd .top

theorem find?_eq_none_iff (hd : d.tree.Proper) : d.find? p = none ↔ ∀ t, ¬d.Holds p t := by
  simp only [Option.eq_none_iff_forall_ne_some, ne_eq, find?_eq_some_iff hd]

theorem content?_eq_some_iff (hd : d.tree.Proper) {bs : List UInt8} :
    d.content? p = some bs ↔ d.Holds p (.file bs) := by
  rw [← find?_eq_some_iff hd, content?]
  split
  next found h => simp [h]
  next h => exact iff_of_false nofun (h bs)

theorem Holds.proper (hd : d.tree.Proper) (h : d.Holds p t) : t.Proper :=
  hd.leadsTo h.choose_spec.2

theorem absolute_below (p : Path) (place names : List String) :
    (p.below names).absolute place = p.absolute place ++ names := by
  unfold Path.absolute Path.below
  split_ifs
  · rw [List.append_assoc]
  · rfl

theorem Holds.below (hd : d.tree.Proper) (h : d.Holds p t) {names : List String} (hnames : t.LeadsTo names u) :
    d.Holds (p.below names) u := by
  obtain ⟨there, hmoves, hthere⟩ := h
  have hu : d.tree.LeadsTo (there ++ names) u := FileTree.leadsTo_append.mpr ⟨t, hthere, hnames⟩
  have hdots : ∀ n ∈ names, n ≠ ".." := fun n hn => ((hd.leadsTo hthere).isName hnames n hn).2
  refine ⟨there ++ names, ?_, hu⟩
  rw [absolute_below]
  exact hmoves.append (FileTree.moves_names hdots hu)

end Disk

end CommentGrade
