import CodeManifest.Project.Config
import CodeManifest.Proofs.Except
import Mathlib.Data.List.Forall2
import Mathlib.Data.Nat.Digits.Defs

namespace CodeManifest

namespace Value

/-- The whole number `n` stands somewhere in a value. -/
inductive Holds (n : Int) : Value → Prop
  | self : Holds n (.int n)
  | item {vs : List Value} {v : Value} (hv : v ∈ vs) (h : Holds n v) : Holds n (.list vs)
  | key {es : List (Value × Value)} {e : Value × Value} (he : e ∈ es) (h : Holds n e.1) : Holds n (.map es)
  | value {es : List (Value × Value)} {e : Value × Value} (he : e ∈ es) (h : Holds n e.2) : Holds n (.map es)

/-- A whole number that is too long to be written. -/
def IsLong (n : Int) : Prop := 10 ^ Text.maxDigits ≤ n.natAbs

theorem isWritable_int {n : Int} : (int n).isWritable = false ↔ IsLong n := by
  have hdigits : (Text.ofNat n.natAbs).length ≤ Text.maxDigits ↔ n.natAbs < 10 ^ Text.maxDigits :=
    Nat.length_toDigits_le_iff (by decide) (by decide)
  rw [isWritable, decide_eq_false_iff_not, hdigits, Nat.not_lt]
  rfl

mutual

theorem exists_long_of_not_writable : ∀ {v : Value}, v.isWritable = false → ∃ n, Holds n v ∧ IsLong n
  | .int n, h => ⟨n, .self, isWritable_int.mp h⟩
  | .list vs, h => by
    have hall : isWritableAll vs = false := h
    obtain ⟨n, v, hv, hn, hlong⟩ := exists_long_of_not_writableAll hall
    exact ⟨n, .item hv hn, hlong⟩
  | .map es, h => by
    have hall : isWritableEntries es = false := h
    obtain ⟨n, e, he, hn, hlong⟩ := exists_long_of_not_writableEntries hall
    exact ⟨n, hn.elim (.key he) (.value he), hlong⟩

theorem exists_long_of_not_writableAll :
    ∀ {vs : List Value}, isWritableAll vs = false → ∃ n, ∃ v ∈ vs, Holds n v ∧ IsLong n
  | v :: vs, h => by
    rcases Bool.and_eq_false_iff.mp h with h | h
    · obtain ⟨n, hn⟩ := exists_long_of_not_writable h
      exact ⟨n, v, List.mem_cons_self, hn⟩
    · obtain ⟨n, w, hw, hn⟩ := exists_long_of_not_writableAll h
      exact ⟨n, w, List.mem_cons_of_mem v hw, hn⟩

theorem exists_long_of_not_writableEntries :
    ∀ {es : List (Value × Value)}, isWritableEntries es = false →
      ∃ n, ∃ e ∈ es, (Holds n e.1 ∨ Holds n e.2) ∧ IsLong n
  | (k, v) :: es, h => by
    rcases Bool.and_eq_false_iff.mp h with h | h
    · rcases Bool.and_eq_false_iff.mp h with h | h
      · obtain ⟨n, hn, hlong⟩ := exists_long_of_not_writable h
        exact ⟨n, (k, v), List.mem_cons_self, Or.inl hn, hlong⟩
      · obtain ⟨n, hn, hlong⟩ := exists_long_of_not_writable h
        exact ⟨n, (k, v), List.mem_cons_self, Or.inr hn, hlong⟩
    · obtain ⟨n, e, he, hn⟩ := exists_long_of_not_writableEntries h
      exact ⟨n, e, List.mem_cons_of_mem (k, v) he, hn⟩

end

theorem isWritable_of_mem {vs : List Value} (h : isWritableAll vs = true) {v : Value} (hv : v ∈ vs) :
    v.isWritable = true := by
  induction vs with
  | nil => cases hv
  | cons w vs ih =>
    obtain ⟨hw, hvs⟩ := Bool.and_eq_true_iff.mp h
    rcases List.mem_cons.mp hv with rfl | hv
    · exact hw
    · exact ih hvs hv

theorem isWritable_of_mem_entries {es : List (Value × Value)} (h : isWritableEntries es = true)
    {e : Value × Value} (he : e ∈ es) : e.1.isWritable = true ∧ e.2.isWritable = true := by
  induction es with
  | nil => cases he
  | cons f es ih =>
    obtain ⟨hf, hes⟩ := Bool.and_eq_true_iff.mp h
    rcases List.mem_cons.mp he with rfl | he
    · exact Bool.and_eq_true_iff.mp hf
    · exact ih hes he

theorem Holds.not_long {n : Int} {v : Value} (h : Holds n v) (hv : v.isWritable = true) : ¬IsLong n := by
  induction h with
  | self =>
    intro hlong
    rw [isWritable_int.mpr hlong] at hv
    cases hv
  | item hmem _ ih => exact ih (isWritable_of_mem hv hmem)
  | key hmem _ ih => exact ih (isWritable_of_mem_entries hv hmem).1
  | value hmem _ ih => exact ih (isWritable_of_mem_entries hv hmem).2

/-- A value has no text where it holds a number that is too long. -/
theorem isWritable_eq_false_iff {v : Value} : v.isWritable = false ↔ ∃ n, Holds n v ∧ IsLong n := by
  constructor
  · exact exists_long_of_not_writable
  · rintro ⟨n, hn, hlong⟩
    cases hv : v.isWritable with
    | false => rfl
    | true => exact absurd hlong (hn.not_long hv)

end Value

namespace Project.Config

variable {data v : Value} {t : Text} {ts : List Text}

/-- The value is this text. Halves of surrogate pairs count as null characters. -/
inductive IsText : Value → Text → Prop
  | text (t : Text) : IsText (.text t) t
  | halved (ps : List Text.Point) : IsText (.halved ps) (ps.map Text.Point.plain)

/-- The value is a text, or a list of texts. -/
inductive Says : Value → List Text → Prop
  | one {v : Value} {t : Text} (h : IsText v t) : Says v [t]
  | list {vs : List Value} {ts : List Text} (h : List.Forall₂ IsText vs ts) : Says (.list vs) ts

theorem textOf?_eq_some_iff : textOf? v = some t ↔ IsText v t := by
  constructor
  · intro h
    cases v <;> cases h
    · exact .text t
    · exact .halved _
  · rintro (_ | _) <;> rfl

theorem textsOf?_list {vs : List Value} : textsOf? (.list vs) = some ts ↔ List.Forall₂ IsText vs ts := by
  change vs.mapM textOf? = some ts ↔ _
  induction vs generalizing ts with
  | nil => simp [List.forall₂_nil_left_iff, eq_comm]
  | cons v vs ih =>
    simp only [List.mapM_cons, Option.bind_eq_bind, Option.bind_eq_some_iff, Option.pure_def, Option.some.injEq]
    constructor
    · rintro ⟨t, ht, us, hus, rfl⟩
      exact .cons (textOf?_eq_some_iff.mp ht) (ih.mp hus)
    · rintro (_ | ⟨ht, hus⟩)
      exact ⟨_, textOf?_eq_some_iff.mpr ht, _, ih.mpr hus, rfl⟩

theorem textsOf?_eq_some_iff : textsOf? v = some ts ↔ Says v ts := by
  constructor
  · intro h
    cases v with
    | text t =>
      cases h
      exact .one (.text t)
    | halved ps =>
      cases h
      exact .one (.halved ps)
    | list vs => exact .list (textsOf?_list.mp h)
    | _ => cases h
  · rintro (⟨⟨t⟩ | ⟨ps⟩⟩ | h)
    · rfl
    · rfl
    · exact textsOf?_list.mpr h

theorem textsOf_eq_ok {key : Text} : textsOf key v = .ok ts ↔ Says v ts := by
  rw [← textsOf?_eq_some_iff]
  unfold textsOf
  cases textsOf? v <;> simp

/-- The fault of a setting is one of the configuration. -/
def Blames {α : Type} (r : Except Fault α) : Prop := ∀ f, r = .error f → f.kind = .configuration

theorem Blames.of_ok {α : Type} {a : α} : Blames (.ok a : Except Fault α) := fun f h => by cases h

theorem Blames.of_configuration {α : Type} {message : Text} {details : List (Value × Value)} :
    Blames (.error (.configuration message details) : Except Fault α) := by
  intro f h
  cases h
  rfl

theorem Blames.bind {α β : Type} {r : Except Fault α} {g : α → Except Fault β} (h : Blames r)
    (hg : ∀ a, Blames (g a)) : Blames (r >>= g) := by
  intro f hf
  rcases error_of_bind_eq_error hf with hf | ⟨a, -, hf⟩
  · exact h f hf
  · exact hg a f hf

theorem blames_textsOf (key : Text) (v : Value) : Blames (textsOf key v) := by
  unfold textsOf
  split
  · exact .of_ok
  · exact .of_configuration

theorem blames_readExtensions (v : Value) : Blames (readExtensions v) := by
  refine (blames_textsOf _ v).bind fun ts => ?_
  dsimp only
  split
  · exact .of_ok
  · exact .of_configuration

theorem blames_readDialects (v : Value) : Blames (readDialects v) := by
  refine (blames_textsOf _ v).bind fun ts => ?_
  dsimp only
  split
  · exact .of_ok
  · exact .of_configuration

theorem blames_readPatterns (v : Value) : Blames (readPatterns v) := by
  unfold readPatterns
  split
  · exact (blames_textsOf _ v).bind fun ts => .of_ok
  · exact .of_ok

theorem blames_setting {α : Type} {read : Value → Except Fault α} (h : ∀ v, Blames (read v)) (data : Value)
    (key : Text) (default : α) : Blames (setting data key read default) := by
  unfold setting
  split
  · exact h _
  · exact .of_ok

theorem blames_withOutput (output : Text) (data : Value) : Blames (withOutput output data) :=
  (blames_setting (fun _ => .of_ok) data _ _).bind fun _ =>
    (blames_setting (fun _ => .of_ok) data _ _).bind fun _ =>
      (blames_setting blames_readExtensions data _ _).bind fun _ =>
        (blames_setting blames_readPatterns data _ _).bind fun _ =>
          (blames_setting blames_readDialects data _ _).bind fun _ => .of_ok

theorem readExtensions_eq_ok {xs : List Text} :
    readExtensions v = .ok xs ↔
      ∃ ts, Says v ts ∧ (∀ t ∈ ts, dotted t ∈ supportedExtensions) ∧ xs = ts.map dotted := by
  constructor
  · intro h
    obtain ⟨ts, hts, h⟩ := exists_of_bind_eq_ok h
    dsimp only at h
    split at h
    · rename_i hsupported
      cases h
      refine ⟨ts, textsOf_eq_ok.mp hts, fun t ht => ?_, rfl⟩
      rw [List.isEmpty_iff, List.filter_eq_nil_iff] at hsupported
      simpa using hsupported _ (List.mem_map_of_mem ht)
    · cases h
  · rintro ⟨ts, hts, hsupported, rfl⟩
    have hnone : ((ts.map dotted).filter (! supportedExtensions.contains ·)).isEmpty = true := by
      rw [List.isEmpty_iff, List.filter_eq_nil_iff, List.forall_mem_map]
      intro t ht
      simp [hsupported t ht]
    unfold readExtensions
    rw [textsOf_eq_ok.mpr hts]
    simp only [bind, Except.bind, hnone, if_true]
    rfl

theorem readDialects_eq_ok {names : List Text} :
    readDialects v = .ok names ↔
      ∃ ts, Says v ts ∧ ts ≠ [] ∧ (∀ t ∈ ts, Text.lower t ∈ supportedDialects) ∧ names = ts.map Text.lower := by
  have hall {ts : List Text} : (((ts.map Text.lower).filter (! supportedDialects.contains ·)).isEmpty &&
      !(ts.map Text.lower).isEmpty) = true ↔ (∀ t ∈ ts, Text.lower t ∈ supportedDialects) ∧ ts ≠ [] := by
    simp [List.isEmpty_iff, List.filter_eq_nil_iff]
  constructor
  · intro h
    obtain ⟨ts, hts, h⟩ := exists_of_bind_eq_ok h
    dsimp only at h
    split at h
    · next hsupported =>
      obtain ⟨hknown, hne⟩ := hall.mp hsupported
      exact ⟨ts, textsOf_eq_ok.mp hts, hne, hknown, (Except.ok.inj h).symm⟩
    · cases h
  · rintro ⟨ts, hts, hne, hknown, rfl⟩
    unfold readDialects
    rw [textsOf_eq_ok.mpr hts]
    simp only [bind, Except.bind, hall.mpr ⟨hknown, hne⟩, if_true]
    rfl

theorem exists_readPatterns : (∃ ps, readPatterns v = .ok ps) ↔ (v.isTruthy = true → ∃ ts, Says v ts) := by
  unfold readPatterns
  cases v.isTruthy with
  | false => exact ⟨fun _ h => absurd h Bool.false_ne_true, fun _ => ⟨[], rfl⟩⟩
  | true =>
    simp only [if_true, forall_const]
    rw [exists_bind_pure]
    exact exists_congr fun ts => textsOf_eq_ok

theorem exists_setting {ε α : Type} {data : Value} {key : Text} {read : Value → Except ε α} {default : α} :
    (∃ a, setting data key read default = .ok a) ↔ ∀ v, data.get? key = some v → ∃ a, read v = .ok a := by
  unfold setting
  cases data.get? key <;> simp

/-- Each setting is read by itself. -/
theorem withOutput_eq_ok {output : Text} {c : Config} :
    withOutput output data = .ok c ↔
      c.output = output ∧
      setting data "summary" (fun v => (.ok v.isTruthy : Except Fault Bool)) true = .ok c.summary ∧
      setting data "debug" (fun v => (.ok v.isTruthy : Except Fault Bool)) false = .ok c.debug ∧
      setting data "source_extensions" readExtensions ({} : Config).sourceExtensions = .ok c.sourceExtensions ∧
      setting data "ignore_patterns" readPatterns [] = .ok c.ignorePatterns ∧
      setting data "dialects" readDialects supportedDialects = .ok c.dialectNames := by
  constructor
  · intro h
    obtain ⟨summary, hsummary, h⟩ := exists_of_bind_eq_ok h
    obtain ⟨debug, hdebug, h⟩ := exists_of_bind_eq_ok h
    obtain ⟨extensions, hextensions, h⟩ := exists_of_bind_eq_ok h
    obtain ⟨patterns, hpatterns, h⟩ := exists_of_bind_eq_ok h
    obtain ⟨dialects, hdialects, h⟩ := exists_of_bind_eq_ok h
    cases h
    exact ⟨rfl, hsummary, hdebug, hextensions, hpatterns, hdialects⟩
  · rintro ⟨rfl, hsummary, hdebug, hextensions, hpatterns, hdialects⟩
    unfold withOutput
    rw [hsummary, hdebug, hextensions, hpatterns, hdialects]
    rfl

/-- What settings can say wrong. -/
inductive Refused (data : Value) : Prop
  | extensions {v : Value} (h : data.get? "source_extensions" = some v) (hv : ∀ ts, ¬Says v ts)
  | extension {v : Value} {ts : List Text} {t : Text} (h : data.get? "source_extensions" = some v)
      (hv : Says v ts) (ht : t ∈ ts) (hunsupported : dotted t ∉ supportedExtensions)
  | patterns {v : Value} (h : data.get? "ignore_patterns" = some v) (htruthy : v.isTruthy = true)
      (hv : ∀ ts, ¬Says v ts)
  | dialects {v : Value} (h : data.get? "dialects" = some v) (hv : ∀ ts, ¬Says v ts)
  | dialect {v : Value} {ts : List Text} {t : Text} (h : data.get? "dialects" = some v) (hv : Says v ts)
      (ht : t ∈ ts) (hunknown : Text.lower t ∉ supportedDialects)
  | noDialect {v : Value} (h : data.get? "dialects" = some v) (hv : Says v [])

theorem Says.unique {us : List Text} (h : Says v ts) (h' : Says v us) : us = ts :=
  Option.some.inj ((textsOf?_eq_some_iff.mpr h').symm.trans (textsOf?_eq_some_iff.mpr h))

theorem exists_readDialects :
    (∃ names, readDialects v = .ok names) ↔
      ∃ ts, Says v ts ∧ ts ≠ [] ∧ ∀ t ∈ ts, Text.lower t ∈ supportedDialects := by
  constructor
  · rintro ⟨names, h⟩
    obtain ⟨ts, hts, hne, hknown, -⟩ := readDialects_eq_ok.mp h
    exact ⟨ts, hts, hne, hknown⟩
  · rintro ⟨ts, hts, hne, hknown⟩
    exact ⟨_, readDialects_eq_ok.mpr ⟨ts, hts, hne, hknown, rfl⟩⟩

/-- Settings that say something wrong make no configuration. -/
theorem Refused.withOutput_ne_ok (h : Refused data) {output : Text} {c : Config} : withOutput output data ≠ .ok c := by
  intro hc
  obtain ⟨-, -, -, hextensions, hpatterns, hdialects⟩ := withOutput_eq_ok.mp hc
  have hextensions := exists_setting.mp ⟨_, hextensions⟩
  have hpatterns := exists_setting.mp ⟨_, hpatterns⟩
  have hdialects := exists_setting.mp ⟨_, hdialects⟩
  cases h with
  | extensions hget hv =>
    obtain ⟨_, h⟩ := hextensions _ hget
    obtain ⟨ts, hts, -⟩ := readExtensions_eq_ok.mp h
    exact hv ts hts
  | extension hget hv ht hunsupported =>
    obtain ⟨_, h⟩ := hextensions _ hget
    obtain ⟨us, hus, hsupported, -⟩ := readExtensions_eq_ok.mp h
    obtain rfl := hv.unique hus
    exact hunsupported (hsupported _ ht)
  | patterns hget htruthy hv =>
    obtain ⟨ts, hts⟩ := exists_readPatterns.mp (hpatterns _ hget) htruthy
    exact hv ts hts
  | dialects hget hv =>
    obtain ⟨ts, hts, -⟩ := exists_readDialects.mp (hdialects _ hget)
    exact hv ts hts
  | dialect hget hv ht hunknown =>
    obtain ⟨us, hus, -, hknown⟩ := exists_readDialects.mp (hdialects _ hget)
    obtain rfl := hv.unique hus
    exact hunknown (hknown _ ht)
  | noDialect hget hv =>
    obtain ⟨us, hus, hne, -⟩ := exists_readDialects.mp (hdialects _ hget)
    exact hne (hv.unique hus)

theorem exists_extensions (h : ¬Refused data) (default : List Text) :
    ∃ xs, setting data "source_extensions" readExtensions default = .ok xs := by
  refine exists_setting.mpr fun v hget => ?_
  obtain ⟨ts, hts⟩ : ∃ ts, Says v ts := by
    by_contra hnone
    exact h (.extensions hget (not_exists.mp hnone))
  refine ⟨_, readExtensions_eq_ok.mpr ⟨ts, hts, fun t ht => ?_, rfl⟩⟩
  by_contra hunsupported
  exact h (.extension hget hts ht hunsupported)

theorem exists_patterns (h : ¬Refused data) (default : List Text) :
    ∃ ps, setting data "ignore_patterns" readPatterns default = .ok ps := by
  refine exists_setting.mpr fun v hget => exists_readPatterns.mpr fun htruthy => ?_
  by_contra hnone
  exact h (.patterns hget htruthy (not_exists.mp hnone))

theorem exists_dialects (h : ¬Refused data) (default : List Text) :
    ∃ names, setting data "dialects" readDialects default = .ok names := by
  refine exists_setting.mpr fun v hget => exists_readDialects.mpr ?_
  obtain ⟨ts, hts⟩ : ∃ ts, Says v ts := by
    by_contra hnone
    exact h (.dialects hget (not_exists.mp hnone))
  refine ⟨ts, hts, ?_, fun t ht => ?_⟩
  · rintro rfl
    exact h (.noDialect hget hts)
  · by_contra hunknown
    exact h (.dialect hget hts ht hunknown)

theorem exists_flag (data : Value) (key : Text) (default : Bool) :
    ∃ b, setting data key (fun v => (.ok v.isTruthy : Except Fault Bool)) default = .ok b :=
  exists_setting.mpr fun v _ => ⟨v.isTruthy, rfl⟩

/-- Settings make a configuration unless they say something wrong. -/
theorem exists_withOutput (output : Text) : (∃ c, withOutput output data = .ok c) ↔ ¬Refused data := by
  constructor
  · rintro ⟨c, h⟩ hrefused
    exact hrefused.withOutput_ne_ok h
  · intro h
    obtain ⟨sourceExtensions, hextensions⟩ := exists_extensions h ({} : Config).sourceExtensions
    obtain ⟨ignorePatterns, hpatterns⟩ := exists_patterns h []
    obtain ⟨dialectNames, hdialects⟩ := exists_dialects h supportedDialects
    obtain ⟨summary, hsummary⟩ := exists_flag data "summary" true
    obtain ⟨debug, hdebug⟩ := exists_flag data "debug" false
    exact ⟨{ output, summary, sourceExtensions, ignorePatterns, dialectNames, debug },
      withOutput_eq_ok.mpr ⟨rfl, hsummary, hdebug, hextensions, hpatterns, hdialects⟩⟩

/-- The output is to be a value with a number in it that is too long to be written. -/
def Overlong (data : Value) : Prop :=
  ∃ v n, data.get? "output" = some v ∧ v.Holds n ∧ Value.IsLong n

theorem output_of_overlong (h : Overlong data) :
    setting data "output" readOutput ({} : Config).output = .error (.defect .outOfRange) := by
  obtain ⟨v, n, hget, hn⟩ := h
  have hv : v.isWritable = false := Value.isWritable_eq_false_iff.mpr ⟨n, hn⟩
  rw [setting, hget]
  dsimp only
  rw [readOutput, hv]
  rfl

theorem exists_output (h : ¬Overlong data) :
    ∃ output, setting data "output" readOutput ({} : Config).output = .ok output := by
  refine exists_setting.mpr fun v hget => ?_
  cases hv : v.isWritable with
  | false =>
    obtain ⟨n, hn⟩ := Value.isWritable_eq_false_iff.mp hv
    exact absurd ⟨v, n, hget, hn⟩ h
  | true => exact ⟨v.toText, by rw [readOutput, if_pos hv]⟩

theorem ofValue_of_overlong (h : Overlong data) : ofValue data = .error (.defect .outOfRange) := by
  unfold ofValue
  rw [output_of_overlong h]
  rfl

theorem exists_withOutput_of_ofValue {c : Config} (h : ofValue data = .ok c) : withOutput c.output data = .ok c := by
  obtain ⟨output, -, h⟩ := exists_of_bind_eq_ok h
  cases hrest : withOutput output data with
  | error f =>
    rw [hrest] at h
    cases h
  | ok c' =>
    rw [hrest] at h
    cases h
    rw [(withOutput_eq_ok.mp hrest).1]
    exact hrest

theorem ofValue_of_refused (h : ¬Overlong data) (hrefused : Refused data) :
    ∃ g, g.kind = .configuration ∧ ofValue data = .error (.fault g) := by
  obtain ⟨output, houtput⟩ := exists_output h
  cases hrest : withOutput output data with
  | error g =>
    refine ⟨g, blames_withOutput output data g hrest, ?_⟩
    unfold ofValue
    rw [houtput]
    change (withOutput output data).mapError Failure.fault = _
    rw [hrest]
    rfl
  | ok c => exact absurd hrest hrefused.withOutput_ne_ok

theorem exists_ofValue (h : ¬Overlong data) (hrefused : ¬Refused data) : ∃ c, ofValue data = .ok c := by
  obtain ⟨output, houtput⟩ := exists_output h
  obtain ⟨c, hc⟩ := (exists_withOutput output).mpr hrefused
  refine ⟨c, ?_⟩
  unfold ofValue
  rw [houtput]
  change (withOutput output data).mapError Failure.fault = _
  rw [hc]
  rfl

/-- There is a configuration, or a fault of the configuration, or the output cannot be written. -/
theorem ofValue_cases (data : Value) :
    Overlong data ∧ ofValue data = .error (.defect .outOfRange) ∨
    (¬Overlong data ∧ Refused data ∧ ∃ g, g.kind = .configuration ∧ ofValue data = .error (.fault g)) ∨
    ¬Overlong data ∧ ¬Refused data ∧ ∃ c, ofValue data = .ok c := by
  by_cases hlong : Overlong data
  · exact Or.inl ⟨hlong, ofValue_of_overlong hlong⟩
  · by_cases hrefused : Refused data
    · exact Or.inr (Or.inl ⟨hlong, hrefused, ofValue_of_refused hlong hrefused⟩)
    · exact Or.inr (Or.inr ⟨hlong, hrefused, exists_ofValue hlong hrefused⟩)

/-- A configuration asks for no files but those that can be read as sources. -/
theorem sourceExtensions_of_ofValue {c : Config} (h : ofValue data = .ok c) :
    ∀ x ∈ c.sourceExtensions, x ∈ supportedExtensions := by
  obtain ⟨-, -, -, hextensions, -⟩ := withOutput_eq_ok.mp (exists_withOutput_of_ofValue h)
  unfold setting at hextensions
  split at hextensions
  · obtain ⟨ts, -, hsupported, hxs⟩ := readExtensions_eq_ok.mp hextensions
    rw [hxs, List.forall_mem_map]
    exact hsupported
  · rw [← Except.ok.inj hextensions]
    decide

end Project.Config

end CodeManifest
