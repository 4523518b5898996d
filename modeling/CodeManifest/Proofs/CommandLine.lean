import CodeManifest.CommandLine
import Mathlib.Data.List.Induction

namespace CodeManifest.CommandLine

/-- A text that can be the value of an option. It may be the name of a command. -/
structure Operand where
  text : Text
  plain : text.head? ≠ some '-'

inductive Choice where
  | root (v : Operand)
  | debug
  | output (short : Bool) (v : Operand)
  | noSummary

namespace Choice

def name : Choice → Text
  | root _ => "--root"
  | debug => "--debug"
  | output true _ => "-o"
  | output false _ => "--output"
  | noSummary => "--no-summary"

def setting : Choice → Setting
  | root _ => .root
  | debug => .debug
  | output .. => .output
  | noSummary => .noSummary

def operand? : Choice → Option Operand
  | root v | output _ v => some v
  | debug | noSummary => none

/-- The arguments that the option is written with. -/
def words (o : Choice) : List Text := o.name :: (o.operand?.map Operand.text).toList

/-- All of them may stand behind `generate`, and some behind `info`. -/
def isKnownTo : Choice → Command → Bool
  | root _, _ | debug, _ => true
  | output .., c | noSummary, c => c = .generate

def root? : Choice → Option Text
  | root v => some v.text
  | _ => none

def debug? : Choice → Option Bool
  | debug => some true
  | _ => none

def output? : Choice → Option (Option Text)
  | output _ v => some (some v.text)
  | _ => none

def summary? : Choice → Option (Option Bool)
  | noSummary => some (some false)
  | _ => none

end Choice

variable {g : Grammar} {o : Choice} {c : Command} {v : Operand}

/-- The arguments that options are written with. -/
def line (os : List Choice) : List Text := os.flatMap Choice.words

/-- The last value that is given counts. -/
def lastGiven {α : Type} (given : Choice → Option α) (default : α) (os : List Choice) : α :=
  (os.filterMap given).getLast?.getD default

/-- What options ask for, with the defaults of the program itself where they say nothing. -/
def asked (os : List Choice) (command : Option Command) : Arguments where
  root := lastGiven Choice.root? "." os
  debug := lastGiven Choice.debug? false os
  output := lastGiven Choice.output? none os
  summary := lastGiven Choice.summary? none os
  command := command

/-- The values that options give, and no others. -/
def given (os : List Choice) : Namespace where
  root := (os.filterMap Choice.root?).getLast?
  debug := (os.filterMap Choice.debug?).getLast?
  output := (os.filterMap Choice.output?).getLast?
  summary := (os.filterMap Choice.summary?).getLast?

namespace Namespace

/-- The values after one more option. -/
def take (n : Namespace) (o : Choice) : Namespace := n.update (given [o])

theorem update_assoc (n m k : Namespace) : (n.update m).update k = n.update (m.update k) := by
  simp [update, Option.or_assoc]

theorem nothing_update (n : Namespace) : update {} n = n := by
  simp [update]

end Namespace

theorem getLast?_filterMap_append {α : Type} (f : Choice → Option α) (as bs : List Choice) :
    ((as ++ bs).filterMap f).getLast? = ((bs.filterMap f).getLast?).or (as.filterMap f).getLast? := by
  rw [List.filterMap_append, List.getLast?_append]

/-- What is given later counts first. -/
theorem given_append (as bs : List Choice) : given (as ++ bs) = (given as).update (given bs) := by
  simp only [given, Namespace.update, getLast?_filterMap_append, Option.or_none]

theorem foldl_take (n : Namespace) (os : List Choice) : os.foldl Namespace.take n = n.update (given os) := by
  induction os generalizing n with
  | nil => rfl
  | cons o os ih =>
    rw [List.foldl_cons, ih, Namespace.take, Namespace.update_assoc, ← given_append]
    rfl

/-- A value that is given comes before the default. -/
theorem get_or_default {α : Type} (x : Option α) (default : α) (h : (x.or (some default)).isSome) :
    (x.or (some default)).get h = x.getD default := by
  cases x <;> rfl

/-- Over the defaults of the program itself, given values make what is asked for. -/
theorem arguments_given (os : List Choice) (command : Option Command)
    (h : (Namespace.update { Grammar.top.defaults with command := some command } (given os)).IsComplete) :
    Namespace.arguments _ h = asked os command := by
  have hroot := get_or_default (given os).root ".".toList h.root
  have hdebug := get_or_default (given os).debug false h.debug
  have houtput := get_or_default (given os).output none h.output
  have hsummary := get_or_default (given os).summary none h.summary
  unfold Namespace.arguments asked lastGiven
  rw [Arguments.mk.injEq]
  exact ⟨hroot, hdebug, houtput, hsummary, rfl⟩

theorem Operand.ne_separator (v : Operand) : v.text ≠ separator := by
  intro h
  exact v.plain (by rw [h]; rfl)

theorem Operand.classify (g : Grammar) (v : Operand) : g.classify v.text = .value := by
  rw [Grammar.classify, if_pos v.plain]

theorem Operand.isValue (g : Grammar) (v : Operand) : g.isValue v.text = true := by
  simp [Grammar.isValue, v.ne_separator, v.classify g]

theorem Command.classify (g : Grammar) (c : Command) : g.classify c.name = .value := by
  cases c <;> rfl

namespace Choice

theorem head?_name (o : Choice) : o.name.head? = some '-' := by
  rcases o with v | _ | ⟨_ | _, v⟩ | _ <;> rfl

theorem name_ne_separator (o : Choice) : o.name ≠ separator := by
  rcases o with v | _ | ⟨_ | _, v⟩ | _
  · exact (by decide : "--root".toList ≠ separator)
  · exact (by decide : "--debug".toList ≠ separator)
  · exact (by decide : "--output".toList ≠ separator)
  · exact (by decide : "-o".toList ≠ separator)
  · exact (by decide : "--no-summary".toList ≠ separator)

/-- The grammar has the option, in the spelling that is used. -/
def IsIn (o : Choice) (g : Grammar) : Prop := g.find? o.name = some o.setting

theorem isIn_top (o : Choice) : o.IsIn .top := by
  rcases o with v | _ | ⟨_ | _, v⟩ | _ <;> rfl

theorem isIn_ofCommand (h : o.isKnownTo c = true) : o.IsIn (.ofCommand c) := by
  rcases o with v | _ | ⟨_ | _, v⟩ | _ <;> cases c <;> first | rfl | cases h

theorem IsIn.classify (h : o.IsIn g) : g.classify o.name = .option o.setting (isShort o.name) none := by
  rw [Grammar.classify, if_neg (not_not.mpr o.head?_name), h]

end Choice

/-- An option takes its value from the next argument, if it has one. -/
theorem Choice.alone_setting (g : Grammar) (o : Choice) (rest : List Text) :
    alone o.setting (((o.operand?.map Operand.text).toList ++ rest).head?.filter g.isValue) =
      .ok ⟨[(o.setting, o.operand?.map Operand.text)], o.operand?.isSome⟩ := by
  have hnext (v : Operand) : (some v.text).filter g.isValue = some v.text := by simp [v.isValue g]
  cases o with
  | root v => simp [setting, operand?, hnext, alone, Setting.takesValue]
  | debug => rfl
  | output short v => simp [setting, operand?, hnext, alone, Setting.takesValue]
  | noSummary => rfl

theorem Namespace.apply_setting (n : Namespace) (o : Choice) :
    n.apply (o.setting, o.operand?.map Operand.text) = .ok (n.take o) := by
  have hvalue (v : Operand) : apply.value (some v.text) = .ok v.text := by
    simp [apply.value, v.ne_separator]
  cases o with
  | root v => simp only [Choice.setting, Choice.operand?, Option.map_some, apply, hvalue]; rfl
  | debug => rfl
  | output short v => simp only [Choice.setting, Choice.operand?, Option.map_some, apply, hvalue]; rfl
  | noSummary => rfl

/-- Reading an option carries it out and goes on behind its value. -/
theorem read_words (h : o.IsIn g) (rest : List Text) (n : Namespace) (stray : Bool) :
    g.read (o.words ++ rest) n stray = g.read rest (n.take o) stray := by
  have hwords : o.words ++ rest = o.name :: ((o.operand?.map Operand.text).toList ++ rest) := rfl
  have happly : [(o.setting, o.operand?.map Operand.text)].foldlM Namespace.apply n = .ok (n.take o) := by
    rw [List.foldlM_cons, n.apply_setting o]
    rfl
  rw [hwords, Grammar.read, if_neg o.name_ne_separator, h.classify]
  simp only [Grammar.cluster, o.alone_setting g rest, bind, Except.bind, happly]
  cases o.operand? <;> rfl

/-- Reading options carries out one after another. -/
theorem read_line {os : List Choice} (h : ∀ o ∈ os, o.IsIn g) (rest : List Text) (n : Namespace) (stray : Bool) :
    g.read (line os ++ rest) n stray = g.read rest (n.update (given os)) stray := by
  rw [← foldl_take]
  induction os generalizing n with
  | nil => rfl
  | cons o os ih =>
    obtain ⟨hfirst, hrest⟩ := List.forall_mem_cons.mp h
    have hline : line (o :: os) ++ rest = o.words ++ (line os ++ rest) := by simp [line]
    rw [hline, read_words hfirst, ih hrest, List.foldl_cons]

theorem read_line_end {os : List Choice} (h : ∀ o ∈ os, o.IsIn g) (n : Namespace) :
    g.read (line os) n false = .ok (n.update (given os)) := by
  have hread := read_line h [] n false
  rw [List.append_nil] at hread
  rw [hread, Grammar.read]
  rfl

/-- Behind a command its own options are read, and what they give comes before what was given in front of it. -/
theorem read_command (c : Command) {os : List Choice} (h : ∀ o ∈ os, o.isKnownTo c = true) (n : Namespace) :
    Grammar.top.read (c.name :: line os) n false = .ok ({ n with command := some (some c) }.update (given os)) := by
  have hfind : Grammar.top.commands.find? (·.name = c.name) = some c := by cases c <;> decide
  have hseparator : c.name ≠ separator := by cases c <;> decide
  have hnothing : (Grammar.ofCommand c).defaults = {} := by cases c <;> rfl
  have hown : (Grammar.ofCommand c).read (line os) (Grammar.ofCommand c).defaults false = .ok (given os) := by
    rw [read_line_end (fun o ho => Choice.isIn_ofCommand (h o ho)), hnothing, Namespace.nothing_update]
  rw [Grammar.read, if_neg hseparator, Command.classify]
  simp only [hfind, hown]
  rfl

/-- A line of options and commands is read from left to right, and what comes of it is complete. -/
theorem parse_of_clear {ws : List Text} (h : ∀ w ∈ ws, Grammar.top.classify w ≠ .ambiguous) {n : Namespace}
    (hread : Grammar.top.read ws Grammar.top.defaults false = .ok n) :
    ∃ hcomplete : n.IsComplete, parse ws = .ok (n.arguments hcomplete) := by
  have hclear : ((ws.takeWhile (· ≠ separator)).any fun w => Grammar.top.classify w = .ambiguous) = false := by
    refine List.any_eq_false.mpr fun w hw => ?_
    simpa using h w ((List.takeWhile_sublist _).subset hw)
  unfold parse
  rw [hclear, if_neg Bool.false_ne_true]
  split
  · next hstop =>
    rw [hread] at hstop
    cases hstop
  · next m hm =>
    obtain rfl := Except.ok.inj (hread.symm.trans hm)
    exact ⟨isComplete_defaults.read hread, rfl⟩

theorem clear_line {os : List Choice} : ∀ w ∈ line os, Grammar.top.classify w ≠ .ambiguous := by
  intro w hw
  obtain ⟨o, -, hw⟩ := List.mem_flatMap.mp hw
  rcases List.mem_cons.mp hw with rfl | hw
  · rw [o.isIn_top.classify]
    exact Word.noConfusion
  · obtain ⟨v, -, rfl⟩ := Option.map_eq_some_iff.mp (Option.mem_toList.mp hw)
    rw [v.classify]
    exact Word.noConfusion

theorem clear_command (c : Command) : Grammar.top.classify c.name ≠ .ambiguous := by
  rw [c.classify]
  exact Word.noConfusion

/-- Options in front of a command and behind it. -/
theorem parse_around (as : List Choice) {bs : List Choice} (h : ∀ o ∈ bs, o.isKnownTo c = true) :
    parse (line as ++ c.name :: line bs) = .ok (asked (as ++ bs) (some c)) := by
  have hclear : ∀ w ∈ line as ++ c.name :: line bs, Grammar.top.classify w ≠ .ambiguous := by
    intro w hw
    rcases List.mem_append.mp hw with hw | hw
    · exact clear_line w hw
    · rcases List.mem_cons.mp hw with rfl | hw
      · exact clear_command c
      · exact clear_line w hw
  have hread : Grammar.top.read (line as ++ c.name :: line bs) Grammar.top.defaults false =
      .ok (Namespace.update { Grammar.top.defaults with command := some (some c) } (given (as ++ bs))) := by
    rw [read_line fun o _ => o.isIn_top, read_command c h, given_append, ← Namespace.update_assoc]
    rfl
  obtain ⟨hcomplete, hparse⟩ := parse_of_clear hclear hread
  rw [hparse, arguments_given]

theorem parse_line (os : List Choice) : parse (line os) = .ok (asked os none) := by
  have hread : Grammar.top.read (line os) Grammar.top.defaults false =
      .ok (Namespace.update { Grammar.top.defaults with command := some none } (given os)) :=
    read_line_end (fun o _ => o.isIn_top) _
  obtain ⟨hcomplete, hparse⟩ := parse_of_clear clear_line hread
  rw [hparse, arguments_given]

/-- Options mean the same wherever the command stands among them, and without a command only that is missing. -/
theorem options_on_either_side (c : Command) (as bs : List Choice) (h : ∀ o ∈ as ++ bs, o.isKnownTo c = true) :
    parse (line as ++ c.name :: line bs) = .ok (asked (as ++ bs) (some c)) ∧
      parse (line as ++ line bs ++ [c.name]) = .ok (asked (as ++ bs) (some c)) ∧
      parse (c.name :: (line as ++ line bs)) = .ok (asked (as ++ bs) (some c)) ∧
      parse (line as ++ line bs) = .ok { asked (as ++ bs) (some c) with command := none } := by
  have hline : line as ++ line bs = line (as ++ bs) := by simp [line]
  have hbehind : parse (line (as ++ bs) ++ [c.name]) = .ok (asked (as ++ bs) (some c)) := by
    have hnone : ∀ o ∈ ([] : List Choice), o.isKnownTo c = true := by simp
    simpa [line] using parse_around (as ++ bs) hnone
  have hfront : parse (c.name :: line (as ++ bs)) = .ok (asked (as ++ bs) (some c)) := by
    simpa [line] using parse_around [] h
  rw [hline]
  exact ⟨parse_around as fun o ho => h o (List.mem_append_right as ho), hbehind, hfront, parse_line (as ++ bs)⟩

/-- Values that are names of commands. -/
theorem options_on_either_side_named :
    parse ["--root", "info", "--debug", "generate", "-o", "generate", "--root", "lib", "--no-summary"] =
        .ok { root := "lib", debug := true, output := some "generate".toList, summary := some false,
              command := some .generate } ∧
      parse ["--root", "info", "info", "--debug"] =
        .ok { root := "info", debug := true, command := some .info } := by
  have hgenerate := (options_on_either_side .generate [.root ⟨"info", by decide⟩, .debug]
    [.output true ⟨"generate", by decide⟩, .root ⟨"lib", by decide⟩, .noSummary] (by decide)).1
  have hinfo := (options_on_either_side .info [.root ⟨"info", by decide⟩] [.debug] (by decide)).1
  exact ⟨hgenerate, hinfo⟩

end CodeManifest.CommandLine
