import CodeManifest.Proofs.Files.Way
import CodeManifest.Proofs.Keyed

namespace CodeManifest

namespace Keyed

variable {κ α : Type} [DecidableEq κ]

theorem get?_modify_self (k : κ) (f : α → α) (es : Keyed κ α) : get? k (modify k f es) = (get? k es).map f := by
  induction es with
  | nil => rfl
  | cons e es ih =>
    obtain ⟨l, w⟩ := e
    by_cases h : l = k <;> simp [modify, get?, h, ih]

theorem get?_modify_of_ne {k l : κ} (h : l ≠ k) (f : α → α) (es : Keyed κ α) :
    get? l (modify k f es) = get? l es := by
  induction es with
  | nil => rfl
  | cons e es ih =>
    obtain ⟨m, w⟩ := e
    by_cases hm : m = k
    · subst hm
      simp [modify, get?, Ne.symm h]
    · simp [modify, get?, hm, ih]

end Keyed

namespace Files

/-- An entry without what is in it, if it is a directory. -/
inductive Look where
  | file (content : ByteArray) (changed : Int)
  | link (target : Text)
  | directory

namespace Entry

def look : Entry → Look
  | file content changed => .file content changed
  | link target => .link target
  | directory _ => .directory

/-- What is seen at the end of some names. -/
def look? (e : Entry) (ns : List Text) : Option Look := (e.at? ns).map look

variable {e new : Entry} {ns : List Text}

theorem look?_eq_file {content : ByteArray} {changed : Int} :
    e.look? ns = some (.file content changed) ↔ e.at? ns = some (.file content changed) := by
  unfold look?
  cases e.at? ns with
  | none => simp
  | some x => cases x <;> simp [look]

theorem look?_eq_link {t : Text} : e.look? ns = some (.link t) ↔ e.at? ns = some (.link t) := by
  unfold look?
  cases e.at? ns with
  | none => simp
  | some x => cases x <;> simp [look]

theorem look?_eq_directory : e.look? ns = some .directory ↔ ∃ es, e.at? ns = some (.directory es) := by
  unfold look?
  cases e.at? ns with
  | none => simp
  | some x => cases x <;> simp [look]

theorem look?_eq_none : e.look? ns = none ↔ e.at? ns = none := Option.map_eq_none_iff

/-- Is the place the root, or in a directory? -/
def HasRoom (e : Entry) (ns : List Text) : Prop :=
  ∀ q n, ns = q ++ [n] → ∃ es, e.at? q = some (.directory es)

theorem HasRoom.nil (e : Entry) : e.HasRoom [] := by
  intro q n h
  simp at h

theorem HasRoom.append_singleton {es : List (Text × Entry)} (h : e.at? ns = some (.directory es)) (n : Text) :
    e.HasRoom (ns ++ [n]) := by
  intro q m hq
  obtain ⟨rfl, rfl⟩ : ns = q ∧ n = m := by simpa using hq
  exact ⟨es, h⟩

theorem HasRoom.origin (h : e.HasRoom ns) (p : Path) : e.HasRoom (origin ns p) := by
  unfold Files.origin
  split
  · exact .nil e
  · exact h

theorem exists_of_prefix {c : Entry} {q : List Text} (hq : q <+: ns) (h : e.at? ns = some c) :
    ∃ x, e.at? q = some x := by
  obtain ⟨r, rfl⟩ := hq
  rw [at?_append] at h
  obtain ⟨x, hx, -⟩ := Option.bind_eq_some_iff.mp h
  exact ⟨x, hx⟩

theorem HasRoom.of_at? {c : Entry} (h : e.at? ns = some c) : e.HasRoom ns := by
  rintro q n rfl
  rw [at?_append_singleton] at h
  obtain ⟨x, hx, hc⟩ := Option.bind_eq_some_iff.mp h
  obtain ⟨es, rfl, -⟩ := isDirectory_of_child? hc
  exact ⟨es, hx⟩

theorem HasRoom.child {n m : Text} (h : e.HasRoom (n :: m :: ns)) :
    ∃ es c, e = .directory es ∧ Keyed.get? n es = some c ∧ c.HasRoom (m :: ns) := by
  obtain ⟨q, l, hq⟩ : ∃ q l, m :: ns = q ++ [l] := ⟨_, _, (List.dropLast_append_getLast (by simp)).symm⟩
  obtain ⟨es', hparent⟩ := h (n :: q) l (by rw [hq]; rfl)
  rw [at?] at hparent
  obtain ⟨c, hc, hes⟩ := Option.bind_eq_some_iff.mp hparent
  obtain ⟨es, rfl, hget⟩ := isDirectory_of_child? hc
  refine ⟨es, c, rfl, hget, fun p k hp => ?_⟩
  obtain ⟨rfl, rfl⟩ : q = p ∧ l = k := by simpa using hq.symm.trans hp
  exact ⟨es', hes⟩

/-- A new entry is seen at its place; nothing is seen anew elsewhere. -/
theorem look?_put (h : e.HasRoom ns) (new : Entry) (q : List Text) :
    (e.put ns new).look? q = if ns <+: q then new.look? (q.drop ns.length) else e.look? q := by
  induction ns generalizing e q with
  | nil => simp [put]
  | cons n ns ih =>
    cases ns with
    | nil =>
      obtain ⟨es, hes⟩ := h [] n rfl
      obtain rfl : e = .directory es := Option.some.inj hes
      cases q with
      | nil => simp [put, look?, at?, look]
      | cons m q =>
        by_cases hm : m = n
        · subst hm
          simp [put, look?, at?, child?, Keyed.lookup_put_self]
        · simp [put, look?, at?, child?, Keyed.lookup_put_of_ne hm, List.cons_prefix_cons, Ne.symm hm]
    | cons k ns =>
      obtain ⟨es, c, rfl, hget, hroom⟩ := h.child
      cases q with
      | nil => simp [put, look?, at?, look]
      | cons m q =>
        by_cases hm : m = n
        · subst hm
          have hbelow := ih hroom q
          simp only [look?] at hbelow
          simp [put, look?, at?, child?, Keyed.get?_modify_self, hget, hbelow, List.cons_prefix_cons]
        · simp [put, look?, at?, child?, Keyed.get?_modify_of_ne hm, List.cons_prefix_cons, Ne.symm hm]

/-- Nothing is seen below what is no directory. -/
theorem look?_append_eq_none (h : e.look? ns ≠ some .directory) {q : List Text} (hq : q ≠ []) :
    e.look? (ns ++ q) = none := by
  rw [look?_eq_none, at?_append]
  cases hat : e.at? ns with
  | none => rfl
  | some x =>
    cases hx : x.at? q with
    | none => exact hx
    | some y =>
      obtain ⟨es, rfl⟩ := isDirectory_of_at? hq hx
      exact absurd (look?_eq_directory.mpr ⟨es, hat⟩) h

theorem at?_put_self (h : e.HasRoom ns) (content : ByteArray) (changed : Int) :
    (e.put ns (.file content changed)).at? ns = some (.file content changed) := by
  rw [← look?_eq_file, look?_put h]
  simp [look?, at?, look]

end Entry

/-- Every directory of the first tree is one in the second, and the links of both are the same. -/
structure Keeps (a b : Entry) : Prop where
  directory : ∀ q, a.look? q = some .directory → b.look? q = some .directory
  link : ∀ q t, a.look? q = some (.link t) ↔ b.look? q = some (.link t)

namespace Keeps

variable {a b c : Entry}

theorem refl (a : Entry) : Keeps a a := ⟨fun _ => id, fun _ _ => Iff.rfl⟩

theorem trans (hab : Keeps a b) (hbc : Keeps b c) : Keeps a c where
  directory q h := hbc.directory q (hab.directory q h)
  link q t := (hab.link q t).trans (hbc.link q t)

/-- A new entry where there was nothing, or a file, keeps everything if there is no link in it. -/
theorem put {ns : List Text} {new : Entry} (hroom : a.HasRoom ns) (hdirectory : a.look? ns ≠ some .directory)
    (hlink : ∀ t, a.look? ns ≠ some (.link t)) (hnew : ∀ q t, new.look? q ≠ some (.link t)) :
    Keeps a (a.put ns new) := by
  have hbelow (r : List Text) (x : Look) (hx : a.look? (ns ++ r) = some x) : ∃ c t, x = .file c t := by
    cases r with
    | nil =>
      rw [List.append_nil] at hx
      cases x with
      | file c t => exact ⟨c, t, rfl⟩
      | link t => exact absurd hx (hlink t)
      | directory => exact absurd hx hdirectory
    | cons n r =>
      rw [Entry.look?_append_eq_none hdirectory (by simp)] at hx
      cases hx
  constructor
  · intro q hq
    rw [Entry.look?_put hroom]
    split
    · rename_i hpre
      obtain ⟨r, rfl⟩ := hpre
      obtain ⟨c, t, hfile⟩ := hbelow r _ hq
      cases hfile
    · exact hq
  · intro q t
    rw [Entry.look?_put hroom]
    split
    · rename_i hpre
      obtain ⟨r, rfl⟩ := hpre
      constructor
      · intro hq
        obtain ⟨c, t, hfile⟩ := hbelow r _ hq
        cases hfile
      · intro hq
        exact absurd hq (hnew _ t)
    · exact Iff.rfl

end Keeps

variable {a b : Entry} {links : Nat} {done todo place : List Text} {o : Option Entry}

/-- Where links are the same, names stand for the same place. -/
theorem resolveFrom_of_keeps (h : Keeps a b) (opened : List (List Text)) (done todo : List Text) :
    resolveFrom b opened done todo = resolveFrom a opened done todo := by
  refine (resolveFrom_congr (fun q t _ => ?_) opened done todo).symm
  rw [← Entry.look?_eq_link, ← Entry.look?_eq_link]
  exact h.link q t

theorem Keeps.exists_directory (h : Keeps a b) {q : List Text} {es : List (Text × Entry)}
    (hq : a.at? q = some (.directory es)) : ∃ es', b.at? q = some (.directory es') :=
  Entry.look?_eq_directory.mp (h.directory q (Entry.look?_eq_directory.mpr ⟨es, hq⟩))

/-- Behind its last name a way ends, unless it is a link. -/
theorem follow_singleton {root : Entry} {n : Text} {es : List (Text × Entry)}
    (hat : root.at? done = some (.directory es)) (hn : n ≠ Path.parentName)
    (hlink : ∀ t, root.at? (done ++ [n]) ≠ some (.link t)) :
    follow root links done [n] = .ok (done ++ [n], root.at? (done ++ [n])) := by
  have hbelow := Entry.at?_child hat n
  cases hget : Keyed.get? n es with
  | none =>
    rw [follow_free hat hn hget, hbelow, hget]
    rfl
  | some x =>
    have hx (t : Text) : x ≠ .link t := by
      rintro rfl
      exact hlink t (hbelow.trans hget)
    rw [follow_child hat hn hget hx, follow]

/-- A way that ends somewhere ends at the same place where everything on it is kept. -/
theorem follow_of_keeps (h : Keeps a b) (hdone : IsDirect a done)
    (hfollow : follow a links done todo = .ok (place, o)) (hend : ∀ t, b.at? place ≠ some (.link t)) :
    follow b links done todo = .ok (place, b.at? place) := by
  fun_induction follow a links done todo with
  | case1 links done =>
    cases hfollow
    rw [follow]
  | case2 links done ns es hat ih =>
    obtain ⟨es', hat'⟩ := h.exists_directory hat
    rw [follow_parent hat']
    exact ih hdone.dropLast hfollow
  | case3 links done n ns es hat hn hget hlast =>
    -- The last name may lead to something only now.
    obtain ⟨es', hat'⟩ := h.exists_directory hat
    obtain rfl : ns = [] := List.isEmpty_iff.mp hlast
    cases hfollow
    exact follow_singleton hat' hn hend
  | case4 links done n ns es hat hn hget hlast => cases hfollow
  | case5 done n ns es hat hn t hget => cases hfollow
  | case6 done n ns es hat hn t hget links p ih =>
    obtain ⟨es', hat'⟩ := h.exists_directory hat
    have hlink : a.look? (done ++ [n]) = some (.link t) :=
      Entry.look?_eq_link.mpr ((Entry.at?_child hat n).trans hget)
    have hlink' : Keyed.get? n es' = some (.link t) :=
      (Entry.at?_child hat' n).symm.trans (Entry.look?_eq_link.mp ((h.link _ t).mp hlink))
    rw [follow_link hat' hn hlink']
    exact ih (hdone.origin p) hfollow
  | case7 links done n ns es hat hn e hnolink hget ih =>
    obtain ⟨es', hat'⟩ := h.exists_directory hat
    have hown : a.at? (done ++ [n]) = some e := (Entry.at?_child hat n).trans hget
    have hne (t : Text) : a.at? (done ++ [n]) ≠ some (.link t) := by
      rw [hown]
      intro he
      exact hnolink t (Option.some.inj he)
    cases e with
    | link t => exact absurd rfl (hnolink t)
    | directory inside =>
      obtain ⟨inside', hown'⟩ := h.exists_directory hown
      rw [Entry.at?_child hat'] at hown'
      rw [follow_child hat' hn hown' (fun t ht => by cases ht)]
      exact ih (hdone.append_singleton hn hne) hfollow
    | file content changed =>
      cases ns with
      | nil =>
        -- The file may have become another.
        rw [follow] at hfollow
        cases hfollow
        exact follow_singleton hat' hn hend
      | cons m ns =>
        rw [follow_file hown] at hfollow
        cases hfollow
  | case8 links done n ns content changed hfile => cases hfollow
  | case9 links done n ns hdir hfile => cases hfollow

/-- A way ends at the root or in a directory. -/
theorem hasRoom_of_follow (hdone : a.HasRoom done) (h : follow a links done todo = .ok (place, o)) :
    a.HasRoom place := by
  fun_induction follow a links done todo with
  | case1 links done =>
    cases h
    exact hdone
  | case2 links done ns es hat ih =>
    obtain ⟨x, hx⟩ := Entry.exists_of_prefix (List.dropLast_prefix done) hat
    exact ih (.of_at? hx) h
  | case3 links done n ns es hat hn hget hlast =>
    cases h
    exact .append_singleton hat n
  | case4 links done n ns es hat hn hget hlast => cases h
  | case5 done n ns es hat hn t hget => cases h
  | case6 done n ns es hat hn t hget links p ih =>
    exact ih (hdone.origin p) h
  | case7 links done n ns es hat hn e hnolink hget ih => exact ih (.append_singleton hat n) h
  | case8 links done n ns content changed hfile => cases h
  | case9 links done n ns hdir hfile => cases h

namespace Disk

variable {d d' : Disk} {p : Path} {t : Text} {now : Int}

/-- Where everything on the way is kept a path leads to the same place. -/
theorem find_of_keeps {ns : List Text} {o : Option Entry} (hhere : d'.here = d.here) (h : Keeps d.root d'.root)
    (hroot : ∀ t, d.root ≠ .link t) (hfind : d.find p = .ok (ns, o)) : d'.find p = .ok (ns, d'.root.at? ns) := by
  obtain ⟨hdirect, -, -⟩ := find_spec hroot hfind
  unfold find names at hfind ⊢
  rw [hhere]
  refine follow_of_keeps h (.nil hroot) hfind fun t hat => hdirect.noLink ns List.prefix_rfl t ?_
  rw [← Entry.look?_eq_link, h.link, Entry.look?_eq_link]
  exact hat

/-- The place at which a file was written, and that it was free or a file. -/
structure Wrote (d : Disk) (ns : List Text) (content : ByteArray) (now : Int) (d' : Disk) : Prop where
  direct : IsDirect d.root ns
  room : d.root.HasRoom ns
  notDirectory : d.root.look? ns ≠ some .directory
  eq : d' = { d with root := d.root.put ns (.file content now) }

namespace Wrote

variable {ns : List Text} {content : ByteArray}

theorem keeps (h : d.Wrote ns content now d') : Keeps d.root d'.root := by
  rw [h.eq]
  refine .put h.room h.notDirectory (fun t => ?_) (fun q t => ?_)
  · rw [Ne, Entry.look?_eq_link]
    exact h.direct.noLink ns List.prefix_rfl t
  · cases q <;> simp [Entry.look?, Entry.at?, Entry.child?, Entry.look]

theorem at?_self (h : d.Wrote ns content now d') : d'.root.at? ns = some (.file content now) := by
  rw [h.eq]
  exact Entry.at?_put_self h.room content now

/-- Elsewhere nothing is seen anew. -/
theorem look?_of_ne (h : d.Wrote ns content now d') {q : List Text} (hq : q ≠ ns) :
    d'.root.look? q = d.root.look? q := by
  rw [h.eq, Entry.look?_put h.room]
  split
  · rename_i hpre
    obtain ⟨r, rfl⟩ := hpre
    have hr : r ≠ [] := by
      rintro rfl
      simp at hq
    rw [Entry.look?_append_eq_none h.notDirectory hr, List.drop_left]
    cases r with
    | nil => exact absurd rfl hr
    | cons n r => rfl
  · rfl

end Wrote

theorem root_ne_link_of_find {place : List Text} {o : Option Entry} (h : d.find p = .ok (place, o))
    (ho : ∀ t, o ≠ some (.link t)) (t : Text) : d.root ≠ .link t := by
  intro hroot
  unfold find at h
  rw [hroot] at h
  cases hn : d.names p with
  | nil =>
    rw [hn, follow] at h
    cases h
    exact ho t rfl
  | cons n ns =>
    rw [hn, follow] at h
    cases h

theorem exists_of_write (h : d.write p t now = .ok d') :
    ∃ ns o, d.find p = .ok (ns, o) ∧ (∀ es, o ≠ some (.directory es)) ∧ (∀ t, o ≠ some (.link t)) ∧
      d' = { d with root := d.root.put ns (.file (Text.toUtf8 t) now) } := by
  unfold write update at h
  split at h
  · rename_i ns hfind
    cases h
    exact ⟨ns, none, hfind, by simp, by simp, rfl⟩
  · rename_i ns old changed hfind
    cases h
    exact ⟨ns, _, hfind, by simp, by simp, rfl⟩
  · cases h
  · cases h

/-- A text is written at the place that the path stands for. -/
theorem wrote_of_write (h : d.write p t now = .ok d') :
    ∃ ns, d.resolve p = .ok ⟨['/'], ns⟩ ∧ d.Wrote ns (Text.toUtf8 t) now d' := by
  obtain ⟨ns, o, hfind, hdirectory, hlink, heq⟩ := exists_of_write h
  have hroot := root_ne_link_of_find hfind hlink
  obtain ⟨hdirect, ho, hresolve⟩ := find_spec hroot hfind
  refine ⟨ns, hresolve, hdirect, hasRoom_of_follow (.nil d.root) hfind, ?_, heq⟩
  rw [Ne, Entry.look?_eq_directory, ← ho]
  rintro ⟨es, he⟩
  exact hdirectory es he

/-- What was written is read. -/
theorem read_of_write (h : d.write p t now = .ok d') : d'.read p = .ok (Text.toUtf8 t, now) := by
  obtain ⟨ns, o, hfind, -, hlink, -⟩ := exists_of_write h
  obtain ⟨ns', hresolve, hwrote⟩ := wrote_of_write h
  have hroot := root_ne_link_of_find hfind hlink
  obtain rfl : ns = ns' := by
    obtain ⟨-, -, hsame⟩ := find_spec hroot hfind
    rw [hsame] at hresolve
    cases hresolve
    rfl
  have hhere : d'.here = d.here := by rw [hwrote.eq]
  have hfind' := find_of_keeps hhere hwrote.keeps hroot hfind
  rw [hwrote.at?_self] at hfind'
  exact read_eq_ok.mpr (entry_eq_ok.mpr ⟨ns, hfind'⟩)

end Disk

end Files

end CodeManifest
