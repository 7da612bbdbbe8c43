import CommentGrade.Proofs.Log.Hierarchy
import Mathlib.Data.List.Induction

/-!
# Where records go

A program configures its log and writes records to it, in any order and as often as it likes. The handlers are always those
of the last configuration. Of a part of the program whose name does not begin with a dot each record that matters enough
gives one line on the console and one in the file of the last configuration, if there is one, and any other record gives
none. A name that begins with a dot may lead past the handlers. Then too nothing is written twice, and no other file is
written to, but the records are not written as configured either.
-/
namespace CommentGrade.Log

open Loggers

/-- What a program does with its log. -/
inductive Call where
  | configure (verbose : Bool) (file : Option String)
  | logger (part : Option String)
  | note (level : Level) (part : Option String) (template : String) (args : List Value)

def Call.run (l : Log) : Call → Log
  | .configure verbose file => l.configure verbose file
  | .logger part => l.register (originOf part)
  | .note level part template args => l.note level part template args

/-- What a log is configured with. -/
structure Setup where
  verbose : Bool
  file : Option String
  deriving DecidableEq, Repr

def Setup.level (s : Setup) : Level := if s.verbose then .debug else .info

def Setup.handlers (s : Setup) : List Handler :=
  ⟨.console, s.level⟩ :: (s.file.map fun name => (⟨.file name, s.level⟩ : Handler)).toList

def Call.setup? : Call → Option Setup
  | .configure verbose file => some ⟨verbose, file⟩
  | .logger _ | .note _ _ _ _ => none

/-- What the last configuration among some calls is. -/
def lastSetup? (calls : List Call) : Option Setup := (calls.filterMap Call.setup?).getLast?

/-- The lines that a log has written to a file. -/
def linesOf (l : Log) (file : String) : List String := (l.files.lookup file).getD []

theorem lastSetup?_concat (calls : List Call) (c : Call) :
    lastSetup? (calls ++ [c]) = c.setup?.or (lastSetup? calls) := by
  rw [lastSetup?, List.filterMap_append, List.getLast?_append, lastSetup?]
  cases c <;> rfl

section Origins

theorem originOf_of_ne {part : String} (h : part ≠ "") : originOf (some part) = mainName ++ "." ++ part := by
  rw [originOf]
  exact h

theorem toList_originOf {part : String} (h : part ≠ "") :
    (originOf (some part)).toList = mainName.toList ++ '.' :: part.toList := by
  rw [originOf_of_ne h]
  simp

theorem not_dangling_originOf (part : Option String) : ¬Dangling (originOf part) := by
  intro h
  have hmain : ¬Dangling mainName := fun h => by simpa using congrArg List.length h
  cases part with
  | none => exact hmain h
  | some part =>
    by_cases hpart : part = ""
    · rw [hpart] at h
      exact hmain h
    · rw [Dangling, toList_originOf hpart, List.append_right_inj, List.cons.injEq] at h
      exact hpart (String.toList_injective h.2)

theorem attached_originOf {part : Option String} (h : (part.getD "").toList.head? ≠ some '.') :
    Attached (originOf part) := by
  cases part with
  | none => exact .inl rfl
  | some part =>
    cases hchars : part.toList with
    | nil =>
      obtain rfl : part = "" := String.toList_injective hchars
      exact .inl rfl
    | cons c t =>
      have hpart : part ≠ "" := by
        rintro rfl
        cases hchars
      have hc : c ≠ '.' := by
        rintro rfl
        exact h (by rw [Option.getD_some, hchars, List.head?_cons])
      exact .inr ⟨c, t, hc, by rw [toList_originOf hpart, hchars]⟩

theorem detached_originOf {part : Option String} {rest : List Char} (h : (part.getD "").toList = '.' :: rest)
    (hrest : rest.head? ≠ some '.') : Detached (originOf part) := by
  cases part with
  | none => cases h
  | some part =>
    have hpart : part ≠ "" := by
      rintro rfl
      cases h
    have hname : (originOf (some part)).toList = mainName.toList ++ '.' :: '.' :: rest := by
      rw [toList_originOf hpart, ← h, Option.getD_some]
    cases rest with
    | nil => exact .inl hname
    | cons c t => exact .inr ⟨c, t, fun hc => hrest (by rw [hc, List.head?_cons]), hname⟩

end Origins

section Delivery

theorem lookup_appendTo (name file : String) (lines : List String) (files : List (String × List String)) :
    ((appendTo name lines files).lookup file).getD [] =
      (files.lookup file).getD [] ++ if file = name then lines else [] := by
  induction files with
  | nil =>
    rw [appendTo, lookup_cons_eq_ite]
    split_ifs <;> rfl
  | cons f files ih =>
    obtain ⟨n, old⟩ := f
    rw [appendTo]
    by_cases hn : n = name
    · rw [if_pos hn, lookup_cons_eq_ite, lookup_cons_eq_ite, hn]
      split_ifs
      · rfl
      · rw [List.append_nil]
    · rw [if_neg hn, lookup_cons_eq_ite, lookup_cons_eq_ite]
      by_cases hfile : file = n
      · rw [if_pos hfile, if_pos hfile, if_neg fun hname => hn (hfile.symm.trans hname), List.append_nil]
      · rw [if_neg hfile, if_neg hfile, ih]

/-- What the handlers of a setup do with a record. -/
def Setup.deliver (s : Setup) (r : Record) (l : Log) : Log :=
  if s.level.number ≤ r.level.number then
    { l with
      console := l.console ++ [r.consoleText]
      files := match s.file with
        | some name => appendTo name [r.fileText] l.files
        | none => l.files }
  else l

/-- What becomes of a record without handlers. -/
def showBare (r : Record) (l : Log) : Log :=
  if Level.warning.number ≤ r.level.number then { l with console := l.console ++ [r.message] } else l

theorem foldl_emit_handlers (s : Setup) (r : Record) (l : Log) : s.handlers.foldl (emit r) l = s.deliver r l := by
  obtain ⟨verbose, file⟩ := s
  rw [Setup.handlers, List.foldl_cons, emit, Setup.deliver]
  by_cases hlevel : (Setup.mk verbose file).level.number ≤ r.level.number
  · rw [if_pos hlevel, if_neg (Nat.not_lt.mpr hlevel)]
    cases file with
    | none => rfl
    | some name => exact if_neg (Nat.not_lt.mpr hlevel)
  · rw [if_neg hlevel, if_pos (Nat.not_le.mp hlevel)]
    cases file with
    | none => rfl
    | some name => exact if_pos (Nat.not_le.mp hlevel)

theorem linesOf_configure (verbose : Bool) (file? : Option String) (l : Log) (file : String) :
    (l.configure verbose file?).linesOf file = l.linesOf file := by
  cases file? with
  | none => rfl
  | some name => exact (lookup_appendTo name file [] l.files).trans (by rw [ite_self, List.append_nil]; rfl)

theorem console_deliver (s : Setup) (r : Record) (l : Log) : (s.deliver r l).console =
    l.console ++ if s.level.number ≤ r.level.number then [r.consoleText] else [] := by
  unfold Setup.deliver
  split_ifs
  · rfl
  · rw [List.append_nil]

theorem linesOf_deliver (s : Setup) (r : Record) (l : Log) (file : String) : (s.deliver r l).linesOf file =
    l.linesOf file ++ if s.level.number ≤ r.level.number ∧ s.file = some file then [r.fileText] else [] := by
  unfold Setup.deliver linesOf
  by_cases hlevel : s.level.number ≤ r.level.number
  · simp only [hlevel, if_true, true_and]
    cases s.file with
    | none => simp
    | some name => simp only [lookup_appendTo, Option.some.injEq, eq_comm]
  · rw [if_neg hlevel, if_neg fun hshown => hlevel hshown.1, List.append_nil]

theorem console_showBare (r : Record) (l : Log) : (showBare r l).console =
    l.console ++ if Level.warning.number ≤ r.level.number then [r.message] else [] := by
  unfold showBare
  split_ifs
  · rfl
  · rw [List.append_nil]

theorem linesOf_showBare (r : Record) (l : Log) (file : String) : (showBare r l).linesOf file = l.linesOf file := by
  unfold showBare
  split_ifs <;> rfl

end Delivery

/-- The level from which on a logger with this name takes records, whichever other loggers there are. -/
inductive Keeps (threshold : Level) (name : String) : Level → Prop where
  | attached : Attached name → Keeps threshold name threshold
  | detached : Detached name → Keeps threshold name .warning

/-- What holds of a log whose last configuration was this one, if there was any. -/
structure Follows (setup? : Option Setup) (l : Log) : Prop where
  loggers : l.loggers.Sound
  threshold : l.threshold = (setup?.map Setup.level).getD .warning
  handlers : l.handlers = (setup?.map Setup.handlers).getD []
  made : setup?.isSome = true → l.loggers.has mainName = true
  answers : ∀ name level least answer, Keeps l.threshold name least → l.answers.lookup (name, level) = some answer →
    answer = decide (least.number ≤ level.number)

theorem follows_empty : Follows none {} where
  loggers := sound_empty
  threshold := rfl
  handlers := rfl
  made h := by cases h
  answers _ _ _ _ _ h := by cases h

section Steps

variable {setup? : Option Setup} {l : Log} {name : String} {level : Level}

theorem Follows.register (h : Follows setup? l) (hname : ¬Dangling name) : Follows setup? (l.register name) where
  loggers := h.loggers.register hname
  threshold := h.threshold
  handlers := h.handlers
  made hsome := (has_register l.loggers name mainName).mpr (.inr (h.made hsome))
  answers := h.answers

theorem Follows.configure (h : Follows setup? l) (verbose : Bool) (file : Option String) :
    Follows (some ⟨verbose, file⟩) (l.configure verbose file) where
  loggers := h.loggers.register (not_dangling_originOf none)
  threshold := rfl
  handlers := rfl
  made _ := (has_register l.loggers mainName mainName).mpr (.inl rfl)
  answers _ _ _ _ _ h := by cases h

theorem Follows.reaches_attached (h : Follows setup? l) (hsome : setup?.isSome = true) (hn : Attached name)
    (hhas : l.loggers.has name = true) : l.reaches name = true :=
  h.loggers.isUnder_of_attached (h.made hsome) hn hhas

theorem Follows.reaches_detached (h : Follows setup? l) (hn : Detached name) : l.reaches name = false :=
  h.loggers.isUnder_of_detached hn

theorem Follows.thresholdOf_eq (h : Follows setup? l) {least : Level} (hk : Keeps l.threshold name least)
    (hhas : l.loggers.has name = true) : l.thresholdOf name = least := by
  cases hk with
  | attached hn =>
    cases setup? with
    | none =>
      rw [thresholdOf, h.threshold]
      exact ite_self _
    | some setup => rw [thresholdOf, if_pos (h.reaches_attached rfl hn hhas)]
  | detached hn => rw [thresholdOf, h.reaches_detached hn, if_neg Bool.false_ne_true]

theorem Follows.ask_fst (h : Follows setup? l) {least : Level} (hk : Keeps l.threshold name least)
    (hhas : l.loggers.has name = true) : (l.ask name level).1 = decide (least.number ≤ level.number) := by
  unfold ask
  split
  next answer hanswer => exact h.answers name level least answer hk hanswer
  next => rw [h.thresholdOf_eq hk hhas]

theorem ask_snd (l : Log) (name : String) (level : Level) :
    (l.ask name level).2 = { l with answers := (l.ask name level).2.answers } := by
  unfold Log.ask
  split <;> rfl

theorem answer_of_ask {n : String} {lv : Level} {answer : Bool}
    (h : (l.ask name level).2.answers.lookup (n, lv) = some answer) :
    l.answers.lookup (n, lv) = some answer ∨ (n, lv) = (name, level) ∧ answer = (l.ask name level).1 := by
  unfold Log.ask at h ⊢
  split at h
  next => exact .inl h
  next =>
    dsimp only at h
    rw [lookup_cons_eq_ite] at h
    split_ifs at h with hkey
    · exact .inr ⟨hkey, (Option.some.inj h).symm⟩
    · exact .inl h

theorem Follows.ask (h : Follows setup? l) (hhas : l.loggers.has name = true) :
    Follows setup? (l.ask name level).2 := by
  rw [ask_snd]
  exact {
    loggers := h.loggers
    threshold := h.threshold
    handlers := h.handlers
    made := h.made
    answers := by
      intro n lv least answer hk hanswer
      rcases answer_of_ask hanswer with hold | ⟨hkey, hnew⟩
      · exact h.answers n lv least answer hk hold
      · obtain ⟨rfl, rfl⟩ := Prod.mk.inj hkey
        exact hnew.trans (h.ask_fst hk hhas) }

theorem dispatch_of_nil {r : Record} (h : (if l.reaches r.origin then l.handlers else []) = []) :
    l.dispatch r = showBare r l := by
  unfold Log.dispatch
  split
  next =>
    rw [showBare]
    by_cases hlevel : Level.warning.number ≤ r.level.number
    · rw [if_pos hlevel, if_neg (Nat.not_lt.mpr hlevel)]
    · rw [if_neg hlevel, if_pos (Nat.not_le.mp hlevel)]
  next hs hne => exact absurd h hne

theorem dispatch_of_not_reaches {r : Record} (h : l.reaches r.origin = false) : l.dispatch r = showBare r l :=
  dispatch_of_nil (by rw [h, if_neg Bool.false_ne_true])

theorem Follows.dispatch_of_reaches {setup : Setup} (h : Follows (some setup) l) {r : Record}
    (hr : l.reaches r.origin = true) : l.dispatch r = setup.deliver r l := by
  have hhandlers : l.handlers = setup.handlers := h.handlers
  rw [Log.dispatch, if_pos hr, hhandlers, ← foldl_emit_handlers]
  rfl

/-- A record goes to the handlers of the last configuration, or to none. -/
theorem Follows.dispatch_cases (h : Follows setup? l) (r : Record) :
    l.dispatch r = showBare r l ∨ ∃ setup, setup? = some setup ∧ l.dispatch r = setup.deliver r l := by
  cases hr : l.reaches r.origin with
  | false => exact .inl (dispatch_of_not_reaches hr)
  | true =>
    cases setup? with
    | none =>
      have hhandlers : l.handlers = [] := h.handlers
      exact .inl (dispatch_of_nil (by rw [if_pos hr, hhandlers]))
    | some setup => exact .inr ⟨setup, rfl, h.dispatch_of_reaches hr⟩

theorem Follows.frame (h : Follows setup? l) (console : List String) (files : List (String × List String)) :
    Follows setup? { l with console := console, files := files } where
  loggers := h.loggers
  threshold := h.threshold
  handlers := h.handlers
  made := h.made
  answers := h.answers

theorem Follows.dispatch (h : Follows setup? l) (r : Record) : Follows setup? (l.dispatch r) := by
  rcases h.dispatch_cases r with hbare | ⟨setup, -, hdeliver⟩
  · rw [hbare, showBare]
    split_ifs
    · exact h.frame _ _
    · exact h
  · rw [hdeliver, Setup.deliver]
    split_ifs
    · exact h.frame _ _
    · exact h

theorem has_register_self (l : Log) (name : String) : (l.register name).loggers.has name = true :=
  (has_register l.loggers name name).mpr (.inl rfl)

theorem Follows.asked (h : Follows setup? l) (hname : ¬Dangling name) :
    Follows setup? ((l.register name).ask name level).2 :=
  (h.register hname).ask (has_register_self l name)

theorem Follows.note (h : Follows setup? l) (part : Option String) (template : String) (args : List Value) :
    Follows setup? (l.note level part template args) := by
  have hasked : Follows setup? ((l.register (originOf part)).ask (originOf part) level).2 :=
    h.asked (not_dangling_originOf part)
  unfold Log.note
  split
  · unfold Log.write
    dsimp only
    split_ifs
    · exact hasked.dispatch _
    · exact hasked
  · exact hasked

theorem Follows.run (h : Follows setup? l) (c : Call) : Follows (c.setup?.or setup?) (c.run l) := by
  cases c with
  | configure verbose file => exact h.configure verbose file
  | logger part => exact h.register (not_dangling_originOf part)
  | note level part template args => exact h.note part template args

end Steps

/-- After some calls the log follows the last configuration among them. -/
theorem follows_calls (calls : List Call) : Follows (lastSetup? calls) (calls.foldl Call.run {}) := by
  induction calls using List.reverseRecOn with
  | nil => exact follows_empty
  | append_singleton calls c ih =>
    rw [lastSetup?_concat, List.foldl_append]
    exact ih.run c

/-- A record goes to the console and to the file of a setup, each once, or is left out. -/
structure Routed (setup : Setup) (r : Record) (l next : Log) : Prop where
  console : next.console = l.console ++ if setup.level.number ≤ r.level.number then [r.consoleText] else []
  files : ∀ file, next.linesOf file =
    l.linesOf file ++ if setup.level.number ≤ r.level.number ∧ setup.file = some file then [r.fileText] else []

/-- A record is shown without its level if it is a warning at least, and no file gets it. -/
structure Bypassed (r : Record) (l next : Log) : Prop where
  console : next.console = l.console ++ if Level.warning.number ≤ r.level.number then [r.message] else []
  files : ∀ file, next.linesOf file = l.linesOf file

/-- A record gives one text on the console at most, and at most one line in the file of a setup. -/
structure AtMostOnce (setup : Setup) (r : Record) (l next : Log) : Prop where
  console : ∃ texts : List String, texts.length ≤ 1 ∧ next.console = l.console ++ texts
  files : ∀ file, next.linesOf file = l.linesOf file ∨
    setup.file = some file ∧ next.linesOf file = l.linesOf file ++ [r.fileText]

section Records

variable {setup : Setup} {l : Log} {r : Record}

/-- The answer of the logger of a record, and the log with it. -/
def asked (r : Record) (l : Log) : Bool × Log := (l.register r.origin).ask r.origin r.level

theorem write_eq (r : Record) (l : Log) :
    l.write r = if (asked r l).1 = true then (asked r l).2.dispatch r else (asked r l).2 := rfl

theorem asked_console (r : Record) (l : Log) : (asked r l).2.console = l.console := by
  rw [asked, ask_snd]
  rfl

theorem asked_linesOf (r : Record) (l : Log) (file : String) : (asked r l).2.linesOf file = l.linesOf file := by
  rw [asked, ask_snd]
  rfl

theorem has_asked (r : Record) (l : Log) : (asked r l).2.loggers.has r.origin = true := by
  rw [asked, ask_snd]
  exact has_register_self l r.origin

variable (h : Follows (some setup) l) (hname : ¬Dangling r.origin)
include h hname

theorem write_of_keeps {least : Level} (hk : Keeps setup.level r.origin least) : l.write r =
    if least.number ≤ r.level.number then (asked r l).2.dispatch r else (asked r l).2 := by
  have hthreshold : (l.register r.origin).threshold = setup.level := h.threshold
  rw [write_eq, asked, (h.register hname).ask_fst (hthreshold ▸ hk) (has_register_self l r.origin)]
  simp only [decide_eq_true_eq]

theorem routed_write (hn : Attached r.origin) : Routed setup r l (l.write r) := by
  have hasked : Follows (some setup) (asked r l).2 := h.asked hname
  rw [write_of_keeps h hname (.attached hn)]
  split_ifs with hlevel
  · rw [hasked.dispatch_of_reaches (hasked.reaches_attached rfl hn (has_asked r l))]
    exact {
      console := by rw [console_deliver, asked_console]
      files := fun file => by rw [linesOf_deliver, asked_linesOf] }
  · exact {
      console := by rw [asked_console, if_neg hlevel, List.append_nil]
      files := fun file => by rw [asked_linesOf, if_neg fun hshown => hlevel hshown.1, List.append_nil] }

theorem bypassed_write (hn : Detached r.origin) : Bypassed r l (l.write r) := by
  have hasked : Follows (some setup) (asked r l).2 := h.asked hname
  rw [write_of_keeps h hname (.detached hn)]
  split_ifs with hlevel
  · rw [dispatch_of_not_reaches (hasked.reaches_detached hn)]
    exact {
      console := by rw [console_showBare, asked_console]
      files := fun file => by rw [linesOf_showBare, asked_linesOf] }
  · exact {
      console := by rw [asked_console, if_neg hlevel, List.append_nil]
      files := asked_linesOf r l }

theorem atMostOnce_write : AtMostOnce setup r l (l.write r) := by
  have hone : ∀ (p : Prop) [Decidable p] (text : String), (if p then [text] else []).length ≤ 1 := by
    intro p _ text
    split_ifs <;> simp
  rw [write_eq]
  split_ifs
  · have hasked : Follows (some setup) (asked r l).2 := h.asked hname
    rcases hasked.dispatch_cases r with hbare | ⟨s, hs, hdeliver⟩
    · rw [hbare]
      exact {
        console := ⟨_, hone _ _, by rw [console_showBare, asked_console]⟩
        files := fun file => .inl (by rw [linesOf_showBare, asked_linesOf]) }
    · obtain rfl := Option.some.inj hs
      rw [hdeliver]
      refine ⟨⟨_, hone _ _, by rw [console_deliver, asked_console]⟩, fun file => ?_⟩
      rw [linesOf_deliver, asked_linesOf]
      split_ifs with hshown
      · exact .inr ⟨hshown.2, rfl⟩
      · exact .inl (List.append_nil _)
  · exact {
      console := ⟨[], Nat.zero_le _, by rw [asked_console, List.append_nil]⟩
      files := fun file => .inl (asked_linesOf r l file) }

end Records

/-- After any calls the handlers are those of the last configuration. From the first one on a record of a part whose name
does not begin with a dot goes exactly to these handlers, each time it matters enough, and no other record of it does. A
record of a part whose name begins with a single dot never does. No record is written twice, nor to a file of an earlier
configuration, whatever the name; and configuring the log writes none. -/
theorem note_routed (calls : List Call) :
    let l := calls.foldl Call.run {}
    l.handlers = ((lastSetup? calls).map Setup.handlers).getD [] ∧
    (∀ verbose file, (l.configure verbose file).console = l.console ∧
      ∀ name, (l.configure verbose file).linesOf name = l.linesOf name) ∧
    ∀ setup, lastSetup? calls = some setup → ∀ level part template args m, message? template args = some m →
      let r : Record := ⟨level, originOf part, m⟩
      let next := l.note level part template args
      ((part.getD "").toList.head? ≠ some '.' → Routed setup r l next) ∧
      (∀ rest, (part.getD "").toList = '.' :: rest → rest.head? ≠ some '.' → Bypassed r l next) ∧
      AtMostOnce setup r l next := by
  intro l
  have hl : Follows (lastSetup? calls) l := follows_calls calls
  refine ⟨hl.handlers, fun verbose file => ⟨rfl, linesOf_configure verbose file l⟩, ?_⟩
  intro setup hsetup level part template args m hm r next
  have hsome : Follows (some setup) l := hsetup ▸ hl
  have hname : ¬Dangling r.origin := not_dangling_originOf part
  have hnext : next = l.write r := by
    change l.note level part template args = _
    rw [Log.note, hm]
  rw [hnext]
  exact ⟨fun hpart => routed_write hsome hname (attached_originOf hpart),
    fun rest hpart hrest => bypassed_write hsome hname (detached_originOf hpart hrest), atMostOnce_write hsome hname⟩

/-- The second file gets the line that the first one would have got before. -/
theorem note_routed_second :
    let calls : List Call := [.note .error (some "cli.run") "early" [], .configure false (some "a"),
      .note .warning (some "cli") "%s" [.str "x"], .configure true (some "b"), .logger (some "cli.run")]
    let l := calls.foldl Call.run {}
    let next := l.note .debug (some "cli.run") "%d files" [.int 2]
    lastSetup? calls = some ⟨true, some "b"⟩ ∧ message? "%d files" [.int 2] = some "2 files" ∧
      "cli.run".toList.head? ≠ some '.' ∧ ".x".toList = '.' :: ['x'] ∧ ['x'].head? ≠ some '.' ∧
      next.console = l.console ++ ["[textinfo] DEBUG 2 files"] ∧
      next.linesOf "b" = l.linesOf "b" ++ ["DEBUG textinfo.cli.run: 2 files"] ∧ next.linesOf "a" = l.linesOf "a" ∧
      (l.note .warning (some ".x") "y" []).linesOf "b" = l.linesOf "b" := by
  intro calls l next
  have hsetup : lastSetup? calls = some ⟨true, some "b"⟩ := by decide +kernel
  have hm : message? "%d files" [.int 2] = some "2 files" := by decide +kernel
  have hpart : "cli.run".toList.head? ≠ some '.' := by decide +kernel
  have hdotted : ".x".toList = '.' :: ['x'] := by decide +kernel
  have hrest : ['x'].head? ≠ some '.' := by decide
  obtain ⟨-, -, hnotes⟩ := note_routed calls
  obtain ⟨hrouted, -, -⟩ := hnotes _ hsetup .debug (some "cli.run") "%d files" [.int 2] _ hm
  obtain ⟨-, hbypassed, -⟩ := hnotes _ hsetup .warning (some ".x") "y" [] "y" rfl
  obtain ⟨hconsole, hfiles⟩ := hrouted hpart
  exact ⟨hsetup, hm, hpart, hdotted, hrest, hconsole, hfiles "b", (hfiles "a").trans (List.append_nil _),
    (hbypassed _ hdotted hrest).files "b"⟩

/-- It is not so that the name of a part does not matter: behind a leading dot nothing is written that should be. -/
theorem not_note_routed_dotted :
    ¬∀ (calls : List Call) setup level part template args m, lastSetup? calls = some setup →
      message? template args = some m → Routed setup ⟨level, originOf part, m⟩ (calls.foldl Call.run {})
        ((calls.foldl Call.run {}).note level part template args) := by
  intro hall
  have hrouted := hall [.configure true none] ⟨true, none⟩ .info (some ".x") "hello" [] "hello" rfl rfl
  have hnothing : ((Log.configure true none {}).note .info (some ".x") "hello" []).console = [] := by decide +kernel
  have hconsole := hrouted.console.symm.trans hnothing
  cases hconsole

end CommentGrade.Log
