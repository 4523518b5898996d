import CodeManifest.Text.Blank

namespace CodeManifest.Tool

/-- The portable form of a type. -/
structure TypeInfo where
  kind : Text
  description : Option Text := none
  values : Option (List Text) := none
  deriving DecidableEq, Repr

namespace TypeText

/-- What follows an import qualifier `import(…).` at the front of a text. -/
def afterQualifier? (t : Text) : Option Text :=
  match Text.dropStart? "import(" t with
  | none => none
  | some r => Text.dropStart? ").".toList (r.dropWhile (· ≠ ')'))

theorem length_afterQualifier {t r : Text} (h : afterQualifier? t = some r) :
    r.length < t.length := by
  unfold afterQualifier? at h
  split at h
  · cases h
  · next u hu =>
    have h3 := (u.dropWhile_suffix (· ≠ ')')).length_le
    have e1 := congrArg List.length (Text.dropStart?_eq_some_iff.1 hu)
    have e2 := congrArg List.length (Text.dropStart?_eq_some_iff.1 h)
    simp only [List.length_append] at e1 e2
    have : "import(".toList.length = 7 := rfl
    omega

/-- The text without its import qualifiers. -/
def dropQualifiers (t : Text) : Text :=
  match _h : afterQualifier? t with
  | some r => dropQualifiers r
  | none =>
    match t with
    | [] => []
    | c :: r => c :: dropQualifiers r
termination_by t.length
decreasing_by
  · exact length_afterQualifier _h
  · simp

/-- The text of a type without its import qualifiers and without blanks around it. -/
def clean (t : Text) : Text := Text.trim (dropQualifiers t)

/-- What follows a literal in the quotes `q` at the front of a text. A literal is not empty. -/
def afterQuoted? (q : Char) (t : Text) : Option Text :=
  match Text.dropStart? [q] t with
  | none => none
  | some r => if r.head? = some q then none else Text.dropStart? [q] (r.dropWhile (· ≠ q))

theorem length_afterQuoted {q : Char} {t r : Text} (h : afterQuoted? q t = some r) : r.length < t.length := by
  unfold afterQuoted? at h
  split at h
  · cases h
  · next u hu =>
    split at h
    · cases h
    · have hle := (u.dropWhile_suffix (· ≠ q)).length_le
      have hfront := congrArg List.length (Text.dropStart?_eq_some_iff.mp hu)
      have hback := congrArg List.length (Text.dropStart?_eq_some_iff.mp h)
      simp only [List.length_append, List.length_singleton] at hfront hback
      omega

/-- What follows a string literal at the front of a text. -/
def afterLiteral? (t : Text) : Option Text := (afterQuoted? '"' t).orElse fun _ => afterQuoted? '\'' t

theorem length_afterLiteral {t r : Text} (h : afterLiteral? t = some r) : r.length < t.length := by
  rw [afterLiteral?, Option.orElse_eq_or, Option.or_eq_some_iff] at h
  obtain h | ⟨-, h⟩ := h
  · exact length_afterQuoted h
  · exact length_afterQuoted h

/-- Is the text nothing but string literals, each with a bar in front? -/
def isBarred (t : Text) : Bool :=
  if t.isEmpty then true
  else match _hbar : Text.dropStart? ['|'] (Text.trimLeft t) with
    | none => false
    | some member =>
      match _hliteral : afterLiteral? (Text.trimLeft member) with
      | none => false
      | some r => isBarred r
termination_by t.length
decreasing_by
  have hblank := (t.dropWhile_suffix Text.isBlank).length_le
  have hbar := congrArg List.length (Text.dropStart?_eq_some_iff.mp _hbar)
  have hinner := (member.dropWhile_suffix Text.isBlank).length_le
  have hliteral := length_afterLiteral _hliteral
  simp only [Text.trimLeft, List.length_append, List.length_singleton] at hbar hliteral
  omega

/-- Is the text a union of string literals? It may begin with a bar. -/
def isUnion (t : Text) : Bool :=
  match afterLiteral? (Text.trimLeft ((Text.dropStart? ['|'] t).getD t)) with
  | none => false
  | some r => isBarred r

/-- The inside of a literal in the quotes `q` at the front of a text, and what follows the literal. -/
def quoted? (q : Char) : Text → Option (Text × Text)
  | [] => none
  | c :: t =>
    if c = q then
      match t.takeWhile (· ≠ q), t.dropWhile (· ≠ q) with
      | v :: vs, _ :: r => some (v :: vs, r)
      | _, _ => none
    else none

theorem length_quoted {q : Char} {t v r : Text} (h : quoted? q t = some (v, r)) : r.length < t.length := by
  cases t with
  | nil => cases h
  | cons c t =>
    have hle := (t.dropWhile_suffix (· ≠ q)).length_le
    simp only [quoted?] at h
    split at h
    · split at h
      · next hdrop =>
        obtain ⟨-, rfl⟩ := Prod.mk.inj (Option.some.inj h)
        rw [hdrop] at hle
        simp only [List.length_cons] at hle ⊢
        omega
      · cases h
    · cases h

/-- The value of a string literal at the front of a text, and what follows the literal. -/
def value? (t : Text) : Option (Text × Text) := (quoted? '"' t).orElse fun _ => quoted? '\'' t

theorem length_value {t v r : Text} (h : value? t = some (v, r)) : r.length < t.length := by
  rw [value?, Option.orElse_eq_or, Option.or_eq_some_iff] at h
  obtain h | ⟨-, h⟩ := h
  · exact length_quoted h
  · exact length_quoted h

/-- The values of all string literals that are found from the front of a text to its end, whatever stands
between them. -/
def literals (t : Text) : List Text :=
  match _h : value? t with
  | some (v, r) => v :: literals r
  | none =>
    match t with
    | [] => []
    | _ :: r => literals r
termination_by t.length
decreasing_by
  · exact length_value _h
  · simp

/-- The text between an opening and a closing text that enclose all of `t`. -/
def between? (start stop t : Text) : Option Text := (Text.dropStart? start t).bind (Text.dropStop? stop)

/-- The type of the elements of an array. -/
def element? (t : Text) : Option Text :=
  match Text.dropStop? "[]" t with
  | some r =>
    let e := Text.trim r
    let e := match Text.dropStart? "readonly " e with
      | some e => Text.trim e
      | none => e
    some (if e.isEmpty then "any" else e)
  | none =>
    let inside := (between? "Array<" ">" t).orElse fun _ => between? "ReadonlyArray<" ">" t
    inside.bind fun e => if e.isEmpty then none else some (Text.trim e)

/-- The kinds of the types that a language has built in. -/
def builtIn : List (Text × Text) := [
  ("string", "string"), ("number", "number"), ("boolean", "boolean"), ("Date", "string"),
  ("any", "any"), ("unknown", "any"), ("object", "object"), ("void", "null"),
  ("undefined", "null"), ("null", "null")]

end TypeText

open TypeText in
/-- The portable form of a type that is clean and not empty: a union of string literals, an array, a
promise, an object written out, a type that is built in, and else a type by its own name. -/
def TypeInfo.ofClean (t : Text) : TypeInfo :=
  if isUnion t then ⟨"string", some ("One of: ".toList ++ Text.join ", " (literals t)), some (literals t)⟩
  else match element? t with
  | some e => ⟨"array", some ("Array of ".toList ++ e), none⟩
  | none =>
  match between? "Promise<" ">" t with
  | some inner =>
    let inner := Text.trim inner
    ⟨"promise", some ("Promise resolving to ".toList ++ if inner.isEmpty then "any".toList else inner), none⟩
  | none =>
    if t.contains '{' && t.contains '}' then ⟨"object", some "Complex object type", none⟩
    else match builtIn.lookup t with
      | some k => ⟨k, if k = t then none else some t, none⟩
      | none => ⟨t, none, none⟩

/-- The portable form of the text of a type. No type at all, or a blank one, may be anything. -/
def TypeInfo.ofText (t : Option Text) : TypeInfo :=
  match t with
  | none => ⟨"any", none, none⟩
  | some t =>
    let c := TypeText.clean t
    if c.isEmpty then ⟨"any", none, none⟩ else ofClean c

end CodeManifest.Tool
