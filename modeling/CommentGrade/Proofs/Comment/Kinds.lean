import CommentGrade.Comment.Extraction
import CommentGrade.Proofs.Text.Lines

/-!
# Comments by kind

An extraction is three runs of comments, each of one kind. Picking the comments of a kind gives its run back.
-/
namespace CommentGrade.Comment

open Text

variable {cs : List Char} {c : Comment}

theorem ofRange?_eq_some_iff {kind : CommentKind} {line start stop : Nat} :
    ofRange? kind cs line start stop = some c ↔
      start < stop ∧ c = ⟨kind, start, stop, line, String.ofList (between cs start stop)⟩ := by
  unfold ofRange?
  by_cases h : start < stop
  · simp [h, eq_comm]
  · simp [h]

theorem kind_of_mem_lineComments {skipsFirstLine : Bool} {e : Expression}
    (h : c ∈ lineComments skipsFirstLine e cs) : c.kind = .line := by
  obtain ⟨m, -, hm⟩ := List.mem_filterMap.mp h
  simp only [ofLineMatch?] at hm
  split_ifs at hm with hskip
  rw [(ofRange?_eq_some_iff.mp hm).2]

theorem kind_of_mem_blockComments {kind : CommentKind} {e : Expression}
    (h : c ∈ blockComments kind e cs) : c.kind = kind := by
  obtain ⟨m, -, hm⟩ := List.mem_filterMap.mp h
  unfold ofBlockMatch? at hm
  split at hm
  · rw [(ofRange?_eq_some_iff.mp hm).2]
  · exact absurd hm (by simp)

/-- The comments of one kind that an expression finds, if there is one. -/
def runOf (find : Expression → List Comment) (e? : Option Expression) : List Comment :=
  (e?.map find).getD []

theorem extract_eq_runs {profile : Profile} (hs : profile.supported = true) (p : Patterns)
    (cs : List Char) : extract profile p cs =
      runOf (lineComments profile.skipsFirstLine · cs) p.line ++
        runOf (blockComments .block · cs) p.block ++ runOf (blockComments .doc · cs) p.doc := by
  rw [extract, if_pos hs]
  rfl

theorem filter_runOf {find : Expression → List Comment} {kind : CommentKind}
    (hfind : ∀ e, ∀ c ∈ find e, c.kind = kind) (e? : Option Expression) (p : CommentKind → Bool) :
    (runOf find e?).filter (p ·.kind) = if p kind then runOf find e? else [] := by
  have hrun : ∀ c ∈ runOf find e?, c.kind = kind := by
    cases e? with
    | none => simp [runOf]
    | some e => exact hfind e
  split_ifs with hk
  · exact List.filter_eq_self.mpr fun c hc => by rw [hrun c hc, hk]
  · exact List.filter_eq_nil_iff.mpr fun c hc => by rwa [hrun c hc]

/-- Of an extraction, the runs of some kinds are what is left if only these are wanted. -/
theorem extract_filter {profile : Profile} (hs : profile.supported = true) (patterns : Patterns) (cs : List Char)
    (p : CommentKind → Bool) : (extract profile patterns cs).filter (p ·.kind) =
      (if p .line then runOf (lineComments profile.skipsFirstLine · cs) patterns.line else []) ++
        (if p .block then runOf (blockComments .block · cs) patterns.block else []) ++
        (if p .doc then runOf (blockComments .doc · cs) patterns.doc else []) := by
  rw [extract_eq_runs hs, List.filter_append, List.filter_append,
    filter_runOf (fun _ _ => kind_of_mem_lineComments),
    filter_runOf (fun _ _ => kind_of_mem_blockComments),
    filter_runOf (fun _ _ => kind_of_mem_blockComments)]

theorem extract_filter_kind {profile : Profile} (hs : profile.supported = true) (p : Patterns)
    (cs : List Char) (k : CommentKind) : (extract profile p cs).filter (·.kind == k) =
      match k with
      | .line => runOf (lineComments profile.skipsFirstLine · cs) p.line
      | .block => runOf (blockComments .block · cs) p.block
      | .doc => runOf (blockComments .doc · cs) p.doc := by
  rw [extract_filter hs p cs (· == k)]
  cases k <;> simp

/-- Patterns that leave out the comments of a kind. -/
def Patterns.without (patterns : Patterns) : CommentKind → Patterns
  | .line => { patterns with line := none }
  | .block => { patterns with block := none }
  | .doc => { patterns with doc := none }

/-- Without the expression for a kind, the other comments are found. -/
theorem extract_without (profile : Profile) (patterns : Patterns) (cs : List Char) (kind : CommentKind) :
    extract profile (patterns.without kind) cs = (extract profile patterns cs).filter (·.kind != kind) := by
  cases hs : profile.supported with
  | false => simp [extract, hs]
  | true =>
    rw [extract_filter hs patterns cs (· != kind), extract_eq_runs hs]
    cases kind <;> rfl

/-- The comments of one kind that are found with the patterns of a profile. -/
def extractOf (kind : CommentKind) (profile : Profile) (scope : Scope) (cs : List Char) : List Comment :=
  (extract profile (Patterns.ofProfile profile scope) cs).filter (·.kind == kind)

end CommentGrade.Comment
