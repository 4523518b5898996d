import CodeManifest.Text

namespace CodeManifest.CommandLine

inductive Command where
  | generate
  | info
  deriving DecidableEq, Repr

def Command.name : Command → Text
  | generate => "generate"
  | info => "info"

/-- What the command line asks for. -/
structure Arguments where
  root : Text := "."
  debug : Bool := false
  output : Option Text := none
  summary : Option Bool := none
  command : Option Command := none
  deriving DecidableEq, Repr

/-- The values that there are so far. A field may have none, not even a default. -/
structure Namespace where
  root : Option Text := none
  debug : Option Bool := none
  output : Option (Option Text) := none
  summary : Option (Option Bool) := none
  command : Option (Option Command) := none
  deriving DecidableEq, Repr

namespace Namespace

/-- The values of `m` where it has one, and else those of `n`. -/
def update (n m : Namespace) : Namespace where
  root := m.root.or n.root
  debug := m.debug.or n.debug
  output := m.output.or n.output
  summary := m.summary.or n.summary
  command := m.command.or n.command

/-- Every field has a value. -/
structure IsComplete (n : Namespace) : Prop where
  root : n.root.isSome
  debug : n.debug.isSome
  output : n.output.isSome
  summary : n.summary.isSome
  command : n.command.isSome

theorem IsComplete.update {n : Namespace} (h : n.IsComplete) (m : Namespace) : (n.update m).IsComplete := by
  constructor <;> simp [Namespace.update, h.root, h.debug, h.output, h.summary, h.command]

def arguments (n : Namespace) (h : n.IsComplete) : Arguments where
  root := n.root.get h.root
  debug := n.debug.get h.debug
  output := n.output.get h.output
  summary := n.summary.get h.summary
  command := n.command.get h.command

end Namespace

/-- Why the program ends before it does anything. -/
inductive Stop where
  | help
  | version
  | usage
  /-- a separator stands where the value of an option is written -/
  | separatorAsValue
  deriving DecidableEq, Repr

/-- The code with which the program ends, if it ends in good order. -/
def Stop.code? : Stop → Option Nat
  | help | version => some 0
  | usage => some 2
  | separatorAsValue => none

inductive Setting where
  | help
  | version
  | root
  | debug
  | output
  | noSummary
  deriving DecidableEq, Repr

def Setting.takesValue : Setting → Bool
  | root | output => true
  | _ => false

/-- The options that one command, or the program itself, knows, the commands behind them, and the values before
anything is read. -/
structure Grammar where
  options : List (Text × Setting)
  commands : List Command
  defaults : Namespace

namespace Grammar

def common : List (Text × Setting) := [("--root", .root), ("--debug", .debug)]

def help : List (Text × Setting) := [("-h", .help), ("--help", .help)]

def generating : List (Text × Setting) :=
  [("-o", .output), ("--output", .output), ("--no-summary", .noSummary)]

/-- What stands in front of a command. -/
def top : Grammar where
  options := help ++ [("--version".toList, .version)] ++ common ++ generating
  commands := [.generate, .info]
  defaults :=
    { root := some ".".toList, debug := some false, output := some none, summary := some none, command := some none }

/-- What stands behind a command. A command has no defaults, so that it takes nothing back that is said in front
of it. -/
def ofCommand : Command → Grammar
  | .generate => ⟨help ++ common ++ generating, [], {}⟩
  | .info => ⟨help ++ common, [], {}⟩

/-- The meaning of an option that is written out. -/
def find? (g : Grammar) (name : Text) : Option Setting := g.options.lookup name

end Grammar

/-- What an argument is by its looks alone. -/
inductive Word where
  | value
  /-- an option, whether its name is a single letter, and the value that is written to it -/
  | option (o : Setting) (short : Bool) (attached : Option Text)
  | unknown
  | ambiguous
  deriving DecidableEq, Repr

/-- The text before and behind the first equals sign. -/
def cutAtEquals? (t : Text) : Option (Text × Text) :=
  match t.dropWhile (· ≠ '=') with
  | [] => none
  | _ :: v => some (t.takeWhile (· ≠ '='), v)

/-- The options that a text may be short for. A single letter carries its value with it. -/
def Grammar.candidates (g : Grammar) (t : Text) : List Word :=
  match t with
  | '-' :: '-' :: _ =>
    let (name, v) := match cutAtEquals? t with
      | some (name, v) => (name, some v)
      | none => (t, none)
    (g.options.filter fun e => name.isPrefixOf e.1).map fun e => .option e.2 false v
  | _ =>
    g.options.filterMap fun e =>
      if e.1 = t.take 2 then some (.option e.2 true (some (t.drop 2)))
      else if t.isPrefixOf e.1 then some (.option e.2 false none)
      else none

/-- Is the text a negative number? A line feed may end it. -/
def isNegativeNumber (t : Text) : Bool :=
  match t with
  | '-' :: r =>
    let r := if r.getLast? = some '\n' then r.dropLast else r
    let whole := r.takeWhile Text.isDigit
    match r.dropWhile Text.isDigit with
    | [] => !whole.isEmpty
    | '.' :: ds => !ds.isEmpty && ds.all Text.isDigit
    | _ => false
  | _ => false

def isShort (name : Text) : Bool := name.length = 2

/-- What an argument is by its looks. -/
def Grammar.classify (g : Grammar) (t : Text) : Word :=
  if t.head? ≠ some '-' then .value
  else match g.find? t with
  | some o => .option o (isShort t) none
  | none =>
  if t.length = 1 then .value
  else match (cutAtEquals? t).bind fun (name, v) => (g.find? name).map (name, v, ·) with
  | some (name, v, o) => .option o (isShort name) (some v)
  | none =>
  match g.candidates t with
  | [w] => w
  | _ :: _ :: _ => .ambiguous
  | [] => if isNegativeNumber t || t.contains ' ' then .value else .unknown

/-- Everything behind this is a value. -/
def separator : Text := "--"

/-- Is the argument a value that an option may take? -/
def Grammar.isValue (g : Grammar) (t : Text) : Bool := t ≠ separator && g.classify t = .value

/-- The options of one argument, with their values, and whether the next argument was used up. -/
structure Cluster where
  options : List (Setting × Option Text)
  usesNext : Bool := false

/-- An option that stands alone takes its value from the next argument. -/
def alone (o : Setting) (next : Option Text) : Except Stop Cluster :=
  if o.takesValue then
    match next with
    | some v => .ok ⟨[(o, some v)], true⟩
    | none => .error .usage
  else .ok ⟨[(o, none)], false⟩

/-- An option with a text attached to it: its value, or further options of a single letter. -/
def Grammar.attached (g : Grammar) (next : Option Text) (o : Setting) (short : Bool) :
    Text → Except Stop Cluster
  | [] => if o.takesValue then .ok ⟨[(o, some [])], false⟩ else .error .usage
  | c :: r =>
    if o.takesValue then .ok ⟨[(o, some (c :: r))], false⟩
    else if short then
      match g.find? ['-', c] with
      | none => .error .usage
      | some p => do
        let more ← if r.isEmpty then alone p next else g.attached next p true r
        return { more with options := (o, none) :: more.options }
    else .error .usage

/-- The options of an argument that is one, with what it says of its value. -/
def Grammar.cluster (g : Grammar) (next : Option Text) (o : Setting) (short : Bool) :
    Option Text → Except Stop Cluster
  | some v => g.attached next o short v
  | none => alone o next

/-- What an option does. -/
def Namespace.apply (n : Namespace) : Setting × Option Text → Except Stop Namespace
  | (.help, _) => .error .help
  | (.version, _) => .error .version
  | (.debug, _) => .ok { n with debug := some true }
  | (.noSummary, _) => .ok { n with summary := some (some false) }
  | (.root, v) => do return { n with root := some (← value v) }
  | (.output, v) => do return { n with output := some (some (← value v)) }
where
  value (v : Option Text) : Except Stop Text :=
    let v := v.getD []
    if v = separator then .error .separatorAsValue else .ok v

/-- Reads arguments from left to right. A command reads all that is behind it for itself, and what it comes to
counts before what was there. `stray` tells that an argument was met that has no meaning, which
only counts if nothing else ends the program first. -/
def Grammar.read (g : Grammar) (ws : List Text) (n : Namespace) (stray : Bool) :
    Except Stop Namespace :=
  match ws with
  | [] => if stray then .error .usage else .ok n
  | w :: rest =>
    if w = separator then .error .usage
    else match g.classify w with
      | .value =>
        if g.commands.isEmpty then g.read rest n true
        else match g.commands.find? (·.name = w) with
          | some c => do
            let own ← (ofCommand c).read rest (ofCommand c).defaults stray
            return { n with command := some (some c) }.update own
          | none => .error .usage
      | .option o short v => do
        let cluster ← g.cluster (rest.head?.filter g.isValue) o short v
        let n ← cluster.options.foldlM Namespace.apply n
        if cluster.usesNext then g.read rest.tail n stray else g.read rest n stray
      | .unknown => g.read rest n true
      | .ambiguous => .error .usage
termination_by ws.length
decreasing_by all_goals simp_wf; try omega

section Complete

variable {n n' : Namespace}

/-- An option only gives values. -/
theorem Namespace.IsComplete.apply (h : n.IsComplete) {o : Setting × Option Text} (ho : n.apply o = .ok n') :
    n'.IsComplete := by
  obtain ⟨o, v⟩ := o
  cases o with
  | help => cases ho
  | version => cases ho
  | debug =>
    cases ho
    exact ⟨h.root, rfl, h.output, h.summary, h.command⟩
  | noSummary =>
    cases ho
    exact ⟨h.root, h.debug, h.output, rfl, h.command⟩
  | root =>
    rw [Namespace.apply] at ho
    cases hvalue : apply.value v with
    | error s =>
      rw [hvalue] at ho
      cases ho
    | ok t =>
      rw [hvalue] at ho
      cases ho
      exact ⟨rfl, h.debug, h.output, h.summary, h.command⟩
  | output =>
    rw [Namespace.apply] at ho
    cases hvalue : apply.value v with
    | error s =>
      rw [hvalue] at ho
      cases ho
    | ok t =>
      rw [hvalue] at ho
      cases ho
      exact ⟨h.root, h.debug, rfl, h.summary, h.command⟩

theorem Namespace.IsComplete.foldlM_apply (h : n.IsComplete) {os : List (Setting × Option Text)}
    (hos : os.foldlM Namespace.apply n = .ok n') : n'.IsComplete := by
  induction os generalizing n with
  | nil =>
    cases hos
    exact h
  | cons o os ih =>
    rw [List.foldlM_cons] at hos
    cases ho : n.apply o with
    | error s =>
      rw [ho] at hos
      cases hos
    | ok m =>
      rw [ho] at hos
      exact ih (h.apply ho) hos

/-- Behind the options of one argument the rest is read. -/
theorem Namespace.IsComplete.goOn (h : n.IsComplete) {g : Grammar} {rest : List Text} {stray : Bool} {cluster : Cluster}
    (htail : ∀ m : Namespace, m.IsComplete → g.read rest.tail m stray = .ok n' → n'.IsComplete)
    (hrest : ∀ m : Namespace, m.IsComplete → g.read rest m stray = .ok n' → n'.IsComplete)
    (hread : (do
      let m ← cluster.options.foldlM Namespace.apply n
      if cluster.usesNext then g.read rest.tail m stray else g.read rest m stray) = .ok n') : n'.IsComplete := by
  cases hoptions : cluster.options.foldlM Namespace.apply n with
  | error s =>
    rw [hoptions] at hread
    cases hread
  | ok m =>
    have hm := h.foldlM_apply hoptions
    rw [hoptions] at hread
    change (if cluster.usesNext then g.read rest.tail m stray else g.read rest m stray) = .ok n' at hread
    split at hread
    · exact htail m hm hread
    · exact hrest m hm hread

/-- What is complete stays so while arguments are read. -/
theorem Namespace.IsComplete.read (h : n.IsComplete) {g : Grammar} {ws : List Text} {stray : Bool}
    (hread : g.read ws n stray = .ok n') : n'.IsComplete := by
  fun_induction Grammar.read g ws n stray with
  | case1 => cases hread
  | case2 =>
    cases hread
    exact h
  | case3 => cases hread
  | case4 g n stray w rest hw hvalue hnone ih => exact ih h hread
  | case5 g n stray w rest hw hvalue hsome c hc ih =>
    cases hown : (Grammar.ofCommand c).read rest (Grammar.ofCommand c).defaults stray with
    | error s =>
      rw [hown] at hread
      cases hread
    | ok own =>
      rw [hown] at hread
      cases hread
      have hcommand : { n with command := some (some c) }.IsComplete :=
        ⟨h.root, h.debug, h.output, h.summary, rfl⟩
      exact hcommand.update own
  | case6 => cases hread
  | case7 g n stray w rest hw o short v hoption ihtail ihrest =>
    cases hcluster : g.cluster (rest.head?.filter g.isValue) o short v with
    | error s =>
      rw [hcluster] at hread
      cases hread
    | ok cluster =>
      rw [hcluster] at hread
      exact h.goOn ihtail ihrest hread
  | case8 g n stray w rest hw hunknown ih => exact ih h hread
  | case9 => cases hread

end Complete

theorem isComplete_defaults : Grammar.top.defaults.IsComplete := ⟨rfl, rfl, rfl, rfl, rfl⟩

/-- Reads a command line. An argument that is short for several options is refused before any
other argument counts. -/
def parse (ws : List Text) : Except Stop Arguments :=
  if (ws.takeWhile (· ≠ separator)).any fun w => Grammar.top.classify w = .ambiguous then
    .error .usage
  else match hread : Grammar.top.read ws Grammar.top.defaults false with
    | .error s => .error s
    | .ok n => .ok (n.arguments (isComplete_defaults.read hread))

end CodeManifest.CommandLine
