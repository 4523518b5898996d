import CodeManifest.Files.Entry

namespace CodeManifest.Files

/-- A directory that is to be made, or the content that is to be in a file. -/
inductive Change where
  | directory (place : List Text)
  | content (place : List Text) (content : ByteArray)

namespace Entry

mutual

/-- What makes the second tree, which begins at the end of the names `place`, out of the first one.
A directory comes before what is in it. A file with an unchanged time is as it was. -/
def changes (old : Option Entry) (place : List Text) : Entry → List Change
  | .file content changed =>
    match old with
    | some (.file _ before) => if before = changed then [] else [.content place content]
    | _ => [.content place content]
  | .link _ => []
  | .directory es =>
    let inside := changesIn old place es
    match old with
    | some (.directory _) => inside
    | _ => .directory place :: inside

def changesIn (old : Option Entry) (place : List Text) : List (Text × Entry) → List Change
  | [] => []
  | (n, e) :: es => changes (old.bind (child? n)) (place ++ [n]) e ++ changesIn old place es

end

/-- Is every name in a directory there once, and so on below it? -/
inductive IsTree : Entry → Prop
  | file (content : ByteArray) (changed : Int) : IsTree (.file content changed)
  | link (target : Text) : IsTree (.link target)
  | directory (es : List (Text × Entry)) (names : (Keyed.keys es).Nodup)
      (inside : ∀ p ∈ es, IsTree p.2) : IsTree (.directory es)

theorem get?_of_mem {es : List (Text × Entry)} (names : (Keyed.keys es).Nodup) {n : Text} {e : Entry}
    (h : (n, e) ∈ es) : Keyed.get? n es = some e := by
  induction es with
  | nil => simp at h
  | cons p es ih =>
    obtain ⟨m, f⟩ := p
    simp only [Keyed.keys, List.map_cons, List.nodup_cons] at names
    rcases List.mem_cons.mp h with h | h
    · simp only [Prod.mk.injEq] at h
      simp [Keyed.get?, h.1, h.2]
    · have hm : m ≠ n := by
        rintro rfl
        exact names.1 (List.mem_map_of_mem (f := Prod.fst) h)
      simp [Keyed.get?, hm, ih names.2 h]

mutual

theorem changes_self (place : List Text) (e : Entry) (h : IsTree e) : changes (some e) place e = [] := by
  cases h with
  | file content changed => simp [changes]
  | link target => simp [changes]
  | directory es names inside =>
    simp only [changes]
    exact changesIn_self place es es names inside (fun _ h => h)

theorem changesIn_self (place : List Text) (all es : List (Text × Entry))
    (names : (Keyed.keys all).Nodup) (inside : ∀ p ∈ es, IsTree p.2) (sub : ∀ p ∈ es, p ∈ all) :
    changesIn (some (.directory all)) place es = [] := by
  match es with
  | [] => rfl
  | (n, e) :: es =>
    have found : Keyed.get? n all = some e := get?_of_mem names (sub (n, e) (by simp))
    simp only [changesIn, Option.bind_some, child?, found, List.append_eq_nil_iff]
    exact ⟨changes_self (place ++ [n]) e (inside (n, e) (by simp)),
      changesIn_self place all es names (fun p h => inside p (by simp [h]))
        (fun p h => sub p (by simp [h]))⟩

end

end Entry

end CodeManifest.Files
