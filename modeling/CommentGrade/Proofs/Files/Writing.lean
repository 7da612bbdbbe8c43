import CommentGrade.Files.Writing
import CommentGrade.Proofs.Files.Places

/-!
# Files that are written

A file can be written where a directory is and no directory has the name of the file. Directories stay what they are
then, so the path that the file was written at leads to it.
-/
namespace CommentGrade

namespace FileTree

variable {t u leaf : FileTree} {es : List (String × FileTree)} {name other : String} {ps loc place names : List String}
  {bs : List UInt8}

section Entries

theorem mem_putEntry_of_ne (h : other ≠ name) : (other, u) ∈ putEntry leaf name ps es ↔ (other, u) ∈ es := by
  induction es with
  | nil => simp [putEntry, h]
  | cons e es ih =>
    rw [putEntry]
    split_ifs with hname
    · have hne : other ≠ e.1 := fun heq => h (heq.trans hname)
      simp [Prod.ext_iff, hne]
    · rw [List.mem_cons, List.mem_cons, ih]

theorem mem_putEntry_of_mem (hes : (es.map (·.1)).Nodup) (h : (name, u) ∈ es) :
    (name, put leaf ps u) ∈ putEntry leaf name ps es := by
  induction es with
  | nil => cases h
  | cons e es ih =>
    rw [List.map_cons, List.nodup_cons] at hes
    rw [putEntry]
    rcases List.mem_cons.mp h with rfl | hmem
    · rw [if_pos rfl]
      exact List.mem_cons_self
    · have hne : e.1 ≠ name := fun heq => hes.1 (heq ▸ List.mem_map_of_mem (f := (·.1)) hmem)
      rw [if_neg hne]
      exact List.mem_cons_of_mem _ (ih hes.2 hmem)

theorem mem_putEntry_of_not_mem (h : ∀ u, (name, u) ∉ es) : (name, graft leaf ps) ∈ putEntry leaf name ps es := by
  induction es with
  | nil => exact List.mem_singleton_self _
  | cons e es ih =>
    have hne : e.1 ≠ name := fun heq => h e.2 (heq ▸ List.mem_cons_self)
    rw [putEntry, if_neg hne]
    exact List.mem_cons_of_mem _ (ih fun u hu => h u (List.mem_cons_of_mem _ hu))

theorem put_file_nil (t : FileTree) : put (.file bs) [] t = .file bs := by
  cases t <;> rfl

theorem mem_putEntry_file (hes : (es.map (·.1)).Nodup) : (name, .file bs) ∈ putEntry (.file bs) name [] es := by
  by_cases h : ∃ u, (name, u) ∈ es
  · obtain ⟨u, hu⟩ := h
    have hput : (name, put (.file bs) [] u) ∈ putEntry (.file bs) name [] es := mem_putEntry_of_mem hes hu
    rwa [put_file_nil] at hput
  · exact mem_putEntry_of_not_mem fun u hu => h ⟨u, hu⟩

end Entries

theorem Proper.leadsTo_put (ht : t.Proper) (hplace : t.LeadsTo place (.directory es)) :
    (put (.file bs) (place ++ [name]) t).LeadsTo (place ++ [name]) (.file bs) := by
  induction place generalizing t with
  | nil =>
    obtain rfl := leadsTo_nil.mp hplace
    exact .down (mem_putEntry_file (proper_directory_iff.mp ht).1) (.here _)
  | cons n names ih =>
    obtain ⟨fs, next, rfl, hmem, hnext⟩ := leadsTo_cons.mp hplace
    obtain ⟨hfs, hbelow⟩ := proper_directory_iff.mp ht
    exact .down (mem_putEntry_of_mem hfs hmem) (ih (hbelow _ hmem).2 hnext)

/-- A directory that is not below the place of the file is still a directory. -/
theorem Proper.directory_put (ht : t.Proper) (h : t.LeadsTo names (.directory es)) (hloc : ¬loc <+: names) :
    ∃ fs, (put (.file bs) loc t).LeadsTo names (.directory fs) := by
  induction loc generalizing t names with
  | nil => exact absurd List.nil_prefix hloc
  | cons p ps ih =>
    cases names with
    | nil =>
      obtain rfl := leadsTo_nil.mp h
      exact ⟨_, .here _⟩
    | cons n names =>
      obtain ⟨fs, next, rfl, hmem, hnext⟩ := leadsTo_cons.mp h
      obtain ⟨hfs, hbelow⟩ := proper_directory_iff.mp ht
      by_cases hn : n = p
      · subst hn
        have hps : ¬ps <+: names := fun hpre => hloc (List.cons_prefix_cons.mpr ⟨rfl, hpre⟩)
        obtain ⟨gs, hgs⟩ := ih (hbelow _ hmem).2 hnext hps
        exact ⟨gs, .down (mem_putEntry_of_mem hfs hmem) hgs⟩
      · exact ⟨es, .down ((mem_putEntry_of_ne hn).mpr hmem) hnext⟩

theorem Moves.put {here there : List String} (ht : t.Proper) (h : t.Moves here ps there)
    (hthere : t.LeadsTo there (.directory es)) (hloc : ∀ fs, ¬t.LeadsTo loc (.directory fs)) :
    (FileTree.put (.file bs) loc t).Moves here ps there := by
  have houtside {names : List String} {fs : List (String × FileTree)} (hnames : t.LeadsTo names (.directory fs)) :
      ¬loc <+: names := by
    rintro ⟨more, rfl⟩
    by_cases hmore : more = []
    · rw [hmore, List.append_nil] at hnames
      exact hloc _ hnames
    · obtain ⟨gs, hgs⟩ := hnames.above hmore
      exact hloc gs hgs
  induction h with
  | stay place => exact .stay place
  | up hdirectory _ ih =>
    obtain ⟨gs, hgs⟩ := ht.directory_put hdirectory (houtside hdirectory)
    exact .up hgs (ih hthere)
  | down hname _ hmoves ih =>
    obtain ⟨fs, hfs⟩ := hmoves.exists_directory hthere
    obtain ⟨gs, hgs⟩ := ht.directory_put hfs (houtside hfs)
    exact .down hname hgs (ih hthere)

end FileTree

namespace Disk

variable {d : Disk} {p : Path} {bs : List UInt8}

/-- A file can be written at a path: its directory is there, and it is no directory itself. -/
def Writable (d : Disk) (p : Path) : Prop :=
  (∃ es, d.Holds { p with parts := p.parts.dropLast } (.directory es)) ∧ ∀ es, ¬d.Holds p (.directory es)

theorem isDirectory_iff (hd : d.tree.Proper) : d.isDirectory p = true ↔ ∃ es, d.Holds p (.directory es) := by
  simp only [← find?_eq_some_iff hd, isDirectory]
  split
  next es h => exact iff_of_true rfl ⟨es, h⟩
  next h => exact iff_of_false nofun fun ⟨es, hes⟩ => h es hes

theorem writeFault?_eq_none_iff (hd : d.tree.Proper) : d.writeFault? p = none ↔ d.Writable p := by
  rw [Writable, ← isDirectory_iff hd, ← not_exists, ← isDirectory_iff hd, writeFault?]
  split_ifs <;> simp_all

theorem Writable.exists_name (h : d.Writable p) :
    ∃ (parent : Path) (name : String), p = parent.below [name] ∧ name ≠ ".." ∧
      ∃ es, d.Holds parent (.directory es) := by
  obtain ⟨⟨es, hparent⟩, hfree⟩ := h
  rcases List.eq_nil_or_concat' p.parts with hnil | ⟨parts, name, hparts⟩
  · have hsame : ({ p with parts := p.parts.dropLast } : Path) = p := by rw [hnil, List.dropLast_nil, ← hnil]
    exact absurd (hsame ▸ hparent) (hfree es)
  · have hp : p = (Path.mk p.root parts).below [name] := by
      rw [Path.below, ← hparts]
    rw [hparts, List.dropLast_concat] at hparent
    refine ⟨⟨p.root, parts⟩, name, hp, ?_, es, hparent⟩
    rintro rfl
    obtain ⟨there, hmoves, hthere⟩ := hparent
    obtain ⟨fs, hfs⟩ : ∃ fs, d.tree.LeadsTo there.dropLast (.directory fs) := by
      rcases List.eq_nil_or_concat' there with rfl | ⟨above, last, rfl⟩
      · exact ⟨es, hthere⟩
      · rw [List.dropLast_concat]
        exact hthere.above (List.cons_ne_nil _ _)
    refine hfree fs ⟨there.dropLast, ?_, hfs⟩
    rw [hp, absolute_below]
    exact hmoves.append (.up hthere (.stay _))

/-- A file is written exactly where one can be written, and its path leads to it afterwards. -/
theorem write_cases (hd : d.tree.Proper) (path : String) (bs : List UInt8) :
    (¬d.Writable (Path.ofString path) ∧ ∃ e, d.write path bs = .error e) ∨
      d.Writable (Path.ofString path) ∧ ∃ e, d.write path bs = .ok e ∧ e.Holds (Path.ofString path) (.file bs) := by
  rw [write]
  cases hfault : d.writeFault? (Path.ofString path) with
  | some fault =>
    refine .inl ⟨fun hwritable => ?_, _, rfl⟩
    exact nomatch hfault.symm.trans ((writeFault?_eq_none_iff hd).mpr hwritable)
  | none =>
    have hwritable := (writeFault?_eq_none_iff hd).mp hfault
    refine .inr ⟨hwritable, _, rfl, ?_⟩
    obtain ⟨parent, name, hp, hname, es, there, hmoves, hthere⟩ := hwritable.exists_name
    have hresolved : d.resolved (Path.ofString path) = there ++ [name] := by
      rw [resolved, Path.normal, hp, absolute_below, List.foldl_append, hmoves.foldl_eq, List.foldl_cons, if_neg hname]
      rfl
    rw [hresolved]
    have hfree (fs : List (String × FileTree)) : ¬d.tree.LeadsTo (there ++ [name]) (.directory fs) := by
      intro hfs
      refine hwritable.2 fs ⟨_, ?_, hfs⟩
      rw [hp, absolute_below]
      exact hmoves.append (.down hname hfs (.stay _))
    have hfile : (FileTree.put (.file bs) (there ++ [name]) d.tree).LeadsTo (there ++ [name]) (.file bs) :=
      hd.leadsTo_put hthere
    refine ⟨there ++ [name], ?_, hfile⟩
    rw [hp, absolute_below]
    exact (hmoves.put hd hthere hfree).append (.down hname hfile (.stay _))

end Disk

end CommentGrade
