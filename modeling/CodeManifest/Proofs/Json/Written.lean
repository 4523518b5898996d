import CodeManifest.Proofs.Json.Numeral

namespace CodeManifest

namespace Double

def isFinite : Double → Bool
  | finite _ _ _ => true
  | _ => false

end Double

namespace Value

mutual

/-- Is every number in the value a number of the grammar? Keys are written as texts in any case. -/
def isFinite : Value → Bool
  | float x => x.isFinite
  | list items => areFinite items
  | map entries => entriesFinite entries
  | _ => true

def areFinite : List Value → Bool
  | [] => true
  | v :: vs => v.isFinite && areFinite vs

def entriesFinite : List (Value × Value) → Bool
  | [] => true
  | (_, v) :: es => v.isFinite && entriesFinite es

end

theorem areFinite_iff {vs : List Value} : areFinite vs = true ↔ ∀ v ∈ vs, v.isFinite = true := by
  induction vs with
  | nil => simp [areFinite]
  | cons v vs ih => simp [areFinite, ih]

theorem entriesFinite_iff {es : List (Value × Value)} :
    entriesFinite es = true ↔ ∀ e ∈ es, e.2.isFinite = true := by
  induction es with
  | nil => simp [entriesFinite]
  | cons e es ih =>
    obtain ⟨k, v⟩ := e
    simp [entriesFinite, ih]

/-- A number that does not count as present is zero. -/
theorem isFinite_of_not_isTruthy {v : Value} (h : v.isTruthy = false) : v.isFinite = true := by
  cases v with
  | float x => cases x <;> simp_all [isTruthy, Double.isZero, isFinite, Double.isFinite]
  | list items => simp_all [isTruthy, isFinite, areFinite]
  | map entries => simp_all [isTruthy, isFinite, entriesFinite]
  | _ => rfl

end Value

namespace Json

theorem hexDigit?_toDigits (n : Nat) : ∀ c ∈ Nat.toDigits 16 n, (hexDigit? c).isSome := by
  have hsmall : ∀ d < 16, (hexDigit? d.digitChar).isSome := by decide
  induction n using Nat.strong_induction_on with
  | _ n ih =>
    by_cases hlarge : 16 ≤ n
    · rw [Nat.toDigits_of_base_le (by omega) hlarge]
      have hlast := hsmall (n % 16) (Nat.mod_lt n (by omega))
      exact List.forall_mem_append.mpr ⟨ih (n / 16) (by omega), by simpa using hlast⟩
    · rw [Nat.toDigits_of_lt_base (by omega)]
      simpa using hsmall n (by omega)

theorem isUnit_unit {n : Nat} (h : n < 0x10000) : IsUnit (unit n) := by
  have hlength : (Nat.toDigits 16 n).length ≤ 4 :=
    (Nat.length_toDigits_le_iff (by omega) (by omega)).mpr h
  refine .code ?_ ?_
  · simp only [Text.hexadecimal, List.length_append, List.length_replicate]
    omega
  · refine List.forall_mem_append.mpr ⟨fun c hc => ?_, hexDigit?_toDigits n⟩
    rw [List.eq_of_mem_replicate hc]
    rfl

/-- Does the text consist of what may stand between quotation marks? -/
def IsBody (t : Text) : Prop := ∃ us : List Text, t = us.flatten ∧ ∀ u ∈ us, IsUnit u

theorem IsUnit.isBody {u : Text} (h : IsUnit u) : IsBody u := ⟨[u], by simp, by simpa using h⟩

theorem IsBody.append {s t : Text} (hs : IsBody s) (ht : IsBody t) : IsBody (s ++ t) := by
  obtain ⟨us, rfl, hus⟩ := hs
  obtain ⟨vs, rfl, hvs⟩ := ht
  exact ⟨us ++ vs, by simp, List.forall_mem_append.mpr ⟨hus, hvs⟩⟩

theorem isBody_escape (c : Char) : IsBody (escape c) := by
  have hlast : c.toNat < 0x110000 := by
    have hvalid := c.valid
    simp only [UInt32.isValidChar, Nat.isValidChar] at hvalid
    change c.val.toNat < 0x110000
    omega
  unfold escape
  dsimp only
  split_ifs with hquote hbackslash _ _ _ _ _ hplain hfirst
  · exact (IsUnit.escaped (by decide)).isBody
  · exact (IsUnit.escaped (by decide)).isBody
  · exact (IsUnit.escaped (by decide)).isBody
  · exact (IsUnit.escaped (by decide)).isBody
  · exact (IsUnit.escaped (by decide)).isBody
  · exact (IsUnit.escaped (by decide)).isBody
  · exact (IsUnit.escaped (by decide)).isBody
  · simp only [Bool.and_eq_true, decide_eq_true_eq] at hplain
    exact (IsUnit.plain hplain.1 hquote hbackslash).isBody
  · exact (isUnit_unit hfirst).isBody
  · have hhigh : 0xD800 + (c.toNat - 0x10000) / 0x400 < 0x10000 := by omega
    have hlow : 0xDC00 + (c.toNat - 0x10000) % 0x400 < 0x10000 := by omega
    exact (isUnit_unit hhigh).isBody.append (isUnit_unit hlow).isBody

theorem isBody_escapePoint (p : Text.Point) : IsBody (points.escapePoint p) := by
  cases p with
  | char c => exact isBody_escape c
  | half place =>
    have hunit : Text.Point.unitOf place < 0x10000 := by
      unfold Text.Point.unitOf
      omega
    exact (isUnit_unit hunit).isBody

/-- What may stand between quotation marks one by one may do so together. -/
theorem isString_flatMap {α : Type} {f : α → Text} (h : ∀ a, IsBody (f a)) (xs : List α) :
    IsString ('"' :: xs.flatMap f ++ ['"']) := by
  have hbody : IsBody (xs.flatMap f) := by
    induction xs with
    | nil => exact ⟨[], rfl, by simp⟩
    | cons a xs ih => exact (h a).append ih
  obtain ⟨us, hus, hunits⟩ := hbody
  rw [hus]
  exact .units hunits

theorem isString_string (t : Text) : IsString (string t) := isString_flatMap isBody_escape t

theorem isString_points (ps : List Text.Point) : IsString (points ps) := isString_flatMap isBody_escapePoint ps

theorem isString_key (k : Value) : IsString (key k) := by
  unfold key
  split
  · exact isString_points _
  · exact isString_string _

theorem isBlanks_newline (level : Nat) : IsBlanks (newline level) := by
  refine List.forall_mem_cons.mpr ⟨by decide, fun c hc => ?_⟩
  rw [List.eq_of_mem_replicate hc]
  rfl

theorem isBlanks_nil : IsBlanks [] := by simp [IsBlanks]

/-- Items with commas between them, each with blanks in front of it. `One` and `Many` are what the grammar
has for one of them and for all. -/
theorem many_join {One Many : Text → Prop} (hlast : ∀ t, One t → Many t)
    (hmore : ∀ t r, One t → Many r → Many (t ++ ',' :: r)) {w w' : Text} (hw : IsBlanks w)
    (hw' : IsBlanks w') {ts : List Text} (hne : ts ≠ [])
    (hts : ∀ t ∈ ts, ∀ v v', IsBlanks v → IsBlanks v' → One (v ++ t ++ v')) :
    Many (w ++ Text.join (',' :: w) ts ++ w') := by
  induction ts with
  | nil => exact absurd rfl hne
  | cons t ts ih =>
    obtain ⟨ht, hts⟩ := List.forall_mem_cons.mp hts
    cases ts with
    | nil => simpa [Text.join] using hlast _ (ht w w' hw hw')
    | cons s ts =>
      have hone := ht w [] hw isBlanks_nil
      rw [List.append_nil] at hone
      rw [Text.join_cons _ _ (List.cons_ne_nil _ _)]
      simpa using hmore _ _ hone (ih (by simp) hts)

theorem isValue_block_list {level : Nat} {ts : List Text} (h : ∀ t ∈ ts, IsValue t) :
    IsValue (block '[' ']' level ts) := by
  unfold block
  split
  · exact .emptyList isBlanks_nil
  · rename_i hne
    have hitems : IsItems _ := many_join (fun _ => .last) (fun _ _ => .more) (isBlanks_newline (level + 1))
      (isBlanks_newline level) (by simpa using hne) fun t ht v v' hv hv' => .padded hv (h t ht) hv'
    simpa using IsValue.list hitems

theorem isValue_block_object {level : Nat} {ts : List Text}
    (h : ∀ t ∈ ts, ∃ k v, IsValue v ∧ t = key k ++ ':' :: ' ' :: v) :
    IsValue (block '{' '}' level ts) := by
  unfold block
  split
  · exact .emptyObject isBlanks_nil
  · rename_i hne
    have hmembers : IsMembers _ := many_join (fun _ => .last) (fun _ _ => .more)
      (isBlanks_newline (level + 1)) (isBlanks_newline level) (by simpa using hne) <| by
        intro t ht w w' hw hw'
        obtain ⟨k, v, hv, rfl⟩ := h t ht
        have hblank : IsBlanks [' '] := by simp [IsBlanks, isBlank]
        have hmember := IsMember.named hw (isString_key k) isBlanks_nil (.padded hblank hv hw')
        simpa using hmember
    simpa using IsValue.object hmembers

mutual

theorem isValue_write (level : Nat) : ∀ v : Value, v.isFinite = true → IsValue (write level v)
  | .null, _ => .word (by simp [write])
  | .bool true, _ => .word (by simp [write])
  | .bool false, _ => .word (by simp [write])
  | .int n, _ => .number (isNumber_ofInt n)
  | .float (.finite s m e), _ => .number (isNumber_render s m e)
  | .float (.infinite _), h => by cases h
  | .float .nan, h => by cases h
  | .text t, _ => .string (isString_string t)
  | .halved ps, _ => .string (isString_points ps)
  | .list items, h => isValue_block_list (isValue_writeItems (level + 1) items h)
  | .map entries, h => isValue_block_object (isMember_writeEntries (level + 1) entries h)
  | .date d, _ => .string (isString_string d.render)
  | .time i zoned, _ => .string (isString_string (Value.time i zoned).toText)

theorem isValue_writeItems (level : Nat) : ∀ vs : List Value, Value.areFinite vs = true →
    ∀ t ∈ writeItems level vs, IsValue t
  | [], _ => by simp [writeItems]
  | v :: vs, h => by
    rw [Value.areFinite, Bool.and_eq_true] at h
    exact List.forall_mem_cons.mpr ⟨isValue_write level v h.1, isValue_writeItems level vs h.2⟩

theorem isMember_writeEntries (level : Nat) : ∀ es : List (Value × Value), Value.entriesFinite es = true →
    ∀ t ∈ writeEntries level es, ∃ k v, IsValue v ∧ t = key k ++ ':' :: ' ' :: v
  | [], _ => by simp [writeEntries]
  | (k, v) :: es, h => by
    rw [Value.entriesFinite, Bool.and_eq_true] at h
    exact List.forall_mem_cons.mpr
      ⟨⟨k, write level v, isValue_write level v h.1, rfl⟩, isMember_writeEntries level es h.2⟩

end

theorem isClosed_number (x : Double) : IsClosed (number x) := by
  cases x with
  | finite s m e => exact (isNumber_render s m e).isSound.closed
  | infinite s => cases s <;> exact .of_forall (by simp [number])
  | nan => exact .of_forall (by simp [number])

theorem not_isBare_of_not_isFinite {x : Double} (h : x.isFinite = false) :
    ∃ c ∈ outside .bare (number x), isBare c = false := by
  cases x with
  | finite s m e => cases h
  | infinite s => cases s <;> exact ⟨'I', by decide, by decide⟩
  | nan => exact ⟨'N', by decide, by decide⟩

theorem isClosed_newline (level : Nat) : IsClosed (newline level) :=
  (IsSound.blanks (isBlanks_newline level)).closed

theorem isClosed_join {sep : Text} (hsep : IsClosed sep) {ts : List Text} (h : ∀ t ∈ ts, IsClosed t) :
    IsClosed (Text.join sep ts) := by
  induction ts with
  | nil => exact .nil
  | cons t ts ih =>
    obtain ⟨ht, hts⟩ := List.forall_mem_cons.mp h
    cases ts with
    | nil => simpa [Text.join] using ht
    | cons s ts =>
      rw [Text.join_cons _ _ (List.cons_ne_nil _ _)]
      exact (ht.append hsep).append (ih hts)

theorem outside_join {sep : Text} (hsep : IsClosed sep) {ts : List Text} (h : ∀ t ∈ ts, IsClosed t)
    {t : Text} (ht : t ∈ ts) {c : Char} (hc : c ∈ outside .bare t) :
    c ∈ outside .bare (Text.join sep ts) := by
  induction ts with
  | nil => cases ht
  | cons s ts ih =>
    obtain ⟨hs, hts⟩ := List.forall_mem_cons.mp h
    cases ts with
    | nil =>
      obtain rfl := List.mem_singleton.mp ht
      simpa [Text.join] using hc
    | cons r ts =>
      rw [Text.join_cons _ _ (List.cons_ne_nil _ _), hs.append hsep, hs]
      rcases List.mem_cons.mp ht with rfl | ht
      · exact List.mem_append_left _ (List.mem_append_left _ hc)
      · exact List.mem_append_right _ (ih hts ht)

section Blocks

variable {start stop : Char} {level : Nat} {ts : List Text}

theorem isClosed_block (hstart : start ≠ '"') (hstop : stop ≠ '"') (h : ∀ t ∈ ts, IsClosed t) :
    IsClosed (block start stop level ts) := by
  have hcomma : IsClosed (',' :: newline (level + 1)) := .cons (by decide) (isClosed_newline _)
  unfold block
  split
  · exact .cons hstart (.singleton hstop)
  · exact (((IsClosed.cons hstart (isClosed_newline _)).append (isClosed_join hcomma h)).append
      (isClosed_newline _)).append (.singleton hstop)

/-- What stands outside of strings in one of the items does so in all of them. -/
theorem outside_block (hstart : start ≠ '"') (h : ∀ t ∈ ts, IsClosed t) {t : Text} (ht : t ∈ ts)
    {c : Char} (hc : c ∈ outside .bare t) : c ∈ outside .bare (block start stop level ts) := by
  have hcomma : IsClosed (',' :: newline (level + 1)) := .cons (by decide) (isClosed_newline _)
  have hfront : IsClosed (start :: newline (level + 1)) := .cons hstart (isClosed_newline _)
  have hmiddle := isClosed_join hcomma h
  have hne : ts.isEmpty = false := by simpa using List.ne_nil_of_mem ht
  unfold block
  rw [hne, if_neg (by decide), (hfront.append hmiddle).append (isClosed_newline _),
    hfront.append hmiddle, hfront]
  have hitems := outside_join hcomma h ht hc
  simp [hitems]

end Blocks

mutual

theorem isClosed_write (level : Nat) : ∀ v : Value, IsClosed (write level v)
  | .null => .of_forall (by simp [write])
  | .bool true => .of_forall (by simp [write])
  | .bool false => .of_forall (by simp [write])
  | .int n => (isNumber_ofInt n).isSound.closed
  | .float x => isClosed_number x
  | .text t => (isString_string t).isClosed
  | .halved ps => (isString_points ps).isClosed
  | .list items => isClosed_block (by decide) (by decide) (isClosed_writeItems (level + 1) items)
  | .map entries => isClosed_block (by decide) (by decide) (isClosed_writeEntries (level + 1) entries)
  | .date d => (isString_string d.render).isClosed
  | .time i zoned => (isString_string (Value.time i zoned).toText).isClosed

theorem isClosed_writeItems (level : Nat) : ∀ vs : List Value, ∀ t ∈ writeItems level vs, IsClosed t
  | [] => by simp [writeItems]
  | v :: vs => List.forall_mem_cons.mpr ⟨isClosed_write level v, isClosed_writeItems level vs⟩

theorem isClosed_writeEntries (level : Nat) :
    ∀ es : List (Value × Value), ∀ t ∈ writeEntries level es, IsClosed t
  | [] => by simp [writeEntries]
  | (k, v) :: es => List.forall_mem_cons.mpr
      ⟨(isString_key k).isClosed.append
        (.cons (by decide) (.cons (by decide) (isClosed_write level v))),
        isClosed_writeEntries level es⟩

end

mutual

theorem not_isBare_write (level : Nat) : ∀ v : Value, v.isFinite = false →
    ∃ c ∈ outside .bare (write level v), isBare c = false
  | .null, h | .bool _, h | .int _, h | .text _, h | .halved _, h | .date _, h | .time _ _, h => by cases h
  | .float _, h => not_isBare_of_not_isFinite h
  | .list items, h => by
    obtain ⟨t, ht, c, hc, hbare⟩ := not_isBare_writeItems (level + 1) items h
    exact ⟨c, outside_block (by decide) (isClosed_writeItems (level + 1) items) ht hc, hbare⟩
  | .map entries, h => by
    obtain ⟨t, ht, c, hc, hbare⟩ := not_isBare_writeEntries (level + 1) entries h
    exact ⟨c, outside_block (by decide) (isClosed_writeEntries (level + 1) entries) ht hc, hbare⟩

theorem not_isBare_writeItems (level : Nat) : ∀ vs : List Value, Value.areFinite vs = false →
    ∃ t ∈ writeItems level vs, ∃ c ∈ outside .bare t, isBare c = false
  | [], h => by cases h
  | v :: vs, h => by
    rw [Value.areFinite, Bool.and_eq_false_iff] at h
    rcases h with h | h
    · exact ⟨_, List.mem_cons_self, not_isBare_write level v h⟩
    · obtain ⟨t, ht, hc⟩ := not_isBare_writeItems level vs h
      exact ⟨t, List.mem_cons_of_mem _ ht, hc⟩

theorem not_isBare_writeEntries (level : Nat) : ∀ es : List (Value × Value),
    Value.entriesFinite es = false → ∃ t ∈ writeEntries level es, ∃ c ∈ outside .bare t, isBare c = false
  | [], h => by cases h
  | (k, v) :: es, h => by
    rw [Value.entriesFinite, Bool.and_eq_false_iff] at h
    rcases h with h | h
    · obtain ⟨c, hc, hbare⟩ := not_isBare_write level v h
      refine ⟨_, List.mem_cons_self, c, ?_, hbare⟩
      rw [(isString_key k).isClosed]
      simp [outside, hc]
    · obtain ⟨t, ht, hc⟩ := not_isBare_writeEntries level es h
      exact ⟨t, List.mem_cons_of_mem _ ht, hc⟩

end

/-- The text of a value, with blanks behind it, is a document where every number in it is finite. -/
theorem isDocument_write_iff {level : Nat} {v : Value} {w : Text} (hw : IsBlanks w) :
    IsDocument (write level v ++ w) ↔ v.isFinite = true := by
  constructor
  · intro h
    cases hfinite : v.isFinite with
    | true => rfl
    | false =>
      obtain ⟨c, hc, hbare⟩ := not_isBare_write level v hfinite
      have hmem : c ∈ outside .bare (write level v ++ w) := by
        rw [isClosed_write level v]
        exact List.mem_append_left _ hc
      rw [h.isSound.bare c hmem] at hbare
      cases hbare
  · intro h
    exact .padded isBlanks_nil (isValue_write level v h) hw

end Json

end CodeManifest
