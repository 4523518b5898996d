import CodeManifest.Files.Path
import CodeManifest.Keyed

namespace CodeManifest.Files

/-- A file with its content and the time of its last change in microseconds, a link with what is
written in it, or a directory. -/
inductive Entry where
  | file (content : ByteArray) (changed : Int)
  | link (target : Text)
  | directory (entries : List (Text × Entry))
  deriving Inhabited

namespace Entry

def isDirectory : Entry → Bool
  | directory _ => true
  | _ => false

/-- The entry of a name in a directory. -/
def child? (name : Text) : Entry → Option Entry
  | directory es => Keyed.get? name es
  | _ => none

/-- The entry at the end of some names. Links are not followed. -/
def at? (e : Entry) : List Text → Option Entry
  | [] => some e
  | n :: ns => (e.child? n).bind (at? · ns)

/-- The tree with another entry at the end of some names, which may be a new one in a directory. -/
def put (e : Entry) (names : List Text) (new : Entry) : Entry :=
  match names, e with
  | [], _ => new
  | [n], directory es => directory (Keyed.put n new es)
  | n :: ns, directory es => directory (Keyed.modify n (put · ns new) es)
  | _ :: _, e => e

/-- The tree without the entry at the end of some names. -/
def erase (e : Entry) (names : List Text) : Entry :=
  match names, e with
  | [n], directory es => directory (es.filter (·.1 ≠ n))
  | n :: ns, directory es => directory (Keyed.modify n (erase · ns) es)
  | _, e => e

mutual

/-- The places of all links in the tree. -/
def linkPlaces : Entry → List (List Text)
  | file _ _ => []
  | link _ => [[]]
  | directory es => linkPlacesIn es

/-- The places of all links below the entries. -/
def linkPlacesIn : List (Text × Entry) → List (List Text)
  | [] => []
  | (n, e) :: es => e.linkPlaces.map (n :: ·) ++ linkPlacesIn es

end

theorem mem_linkPlacesIn {n : Text} {e : Entry} {es : List (Text × Entry)} (h : Keyed.get? n es = some e)
    {ns : List Text} (hns : ns ∈ e.linkPlaces) : n :: ns ∈ linkPlacesIn es := by
  induction es with
  | nil => cases h
  | cons f es ih =>
    obtain ⟨m, x⟩ := f
    rw [Keyed.get?] at h
    rw [linkPlacesIn, List.mem_append]
    split at h
    · next hm =>
      obtain rfl := Option.some.inj h
      exact .inl (hm ▸ List.mem_map_of_mem hns)
    · exact .inr (ih h)

theorem mem_linkPlaces {e : Entry} {ns : List Text} {t : Text} (h : e.at? ns = some (.link t)) :
    ns ∈ e.linkPlaces := by
  induction ns generalizing e with
  | nil =>
    obtain rfl := Option.some.inj h
    simp [linkPlaces]
  | cons n ns ih =>
    rw [at?] at h
    obtain ⟨c, hc, hbelow⟩ := Option.bind_eq_some_iff.mp h
    cases e with
    | file content changed => cases hc
    | link target => cases hc
    | directory es =>
      rw [linkPlaces]
      exact mem_linkPlacesIn hc (ih hbelow)

/-- How many links of the tree are at none of some places. -/
def linksBeside (e : Entry) (places : List (List Text)) : Nat := (e.linkPlaces.filter (· ∉ places)).length

theorem linksBeside_cons {e : Entry} {ns : List Text} {t : Text} {places : List (List Text)}
    (h : e.at? ns = some (.link t)) (hns : ns ∉ places) : e.linksBeside (ns :: places) < e.linksBeside places := by
  have hmem : ns ∈ e.linkPlaces.filter (· ∉ places) := List.mem_filter.mpr ⟨mem_linkPlaces h, by simpa using hns⟩
  have hfilter : e.linkPlaces.filter (· ∉ ns :: places) = (e.linkPlaces.filter (· ∉ places)).filter (· ≠ ns) := by
    rw [List.filter_filter]
    apply List.filter_congr
    intro q _
    simp
  rw [linksBeside, hfilter, linksBeside, List.length_filter_lt_length_iff_exists]
  exact ⟨ns, hmem, by simp⟩

end Entry

end CodeManifest.Files
