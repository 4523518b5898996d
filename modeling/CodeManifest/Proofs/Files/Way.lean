import CodeManifest.Failure
import CodeManifest.Proofs.Except
import Mathlib.Data.List.DropRight

namespace CodeManifest.Files

namespace Entry

theorem at?_append (e : Entry) (ns ms : List Text) : e.at? (ns ++ ms) = (e.at? ns).bind (at? · ms) := by
  induction ns generalizing e with
  | nil => rfl
  | cons n ns ih =>
    rw [List.cons_append, at?, at?]
    cases e.child? n with
    | none => rfl
    | some c => exact ih c

theorem at?_append_singleton (e : Entry) (ns : List Text) (n : Text) :
    e.at? (ns ++ [n]) = (e.at? ns).bind (child? n) := by
  rw [at?_append]
  cases e.at? ns with
  | none => rfl
  | some c =>
    change (c.child? n).bind (fun c => some c) = c.child? n
    simp

/-- Only directories have anything below them. -/
theorem isDirectory_of_child? {e c : Entry} {n : Text} (h : e.child? n = some c) :
    ∃ es, e = .directory es ∧ Keyed.get? n es = some c := by
  cases e with
  | directory es => exact ⟨es, rfl, h⟩
  | file content changed => cases h
  | link target => cases h

theorem at?_child {e : Entry} {ns : List Text} {es : List (Text × Entry)} (h : e.at? ns = some (.directory es))
    (n : Text) : e.at? (ns ++ [n]) = Keyed.get? n es := by
  rw [at?_append_singleton, h]
  rfl

theorem isDirectory_of_at? {e c : Entry} {ns : List Text} (hns : ns ≠ []) (h : e.at? ns = some c) :
    ∃ es, e = .directory es := by
  cases ns with
  | nil => exact absurd rfl hns
  | cons n ns =>
    rw [at?] at h
    obtain ⟨b, hb, -⟩ := Option.bind_eq_some_iff.mp h
    obtain ⟨es, he, -⟩ := isDirectory_of_child? hb
    exact ⟨es, he⟩

end Entry

/-- No link is on the way along the names, and none of them leads back. -/
structure IsDirect (root : Entry) (ns : List Text) : Prop where
  forward : Path.parentName ∉ ns
  noLink : ∀ q, q <+: ns → ∀ t, root.at? q ≠ some (.link t)

namespace IsDirect

variable {root : Entry} {ns : List Text}

theorem nil (h : ∀ t, root ≠ .link t) : IsDirect root [] where
  forward := List.not_mem_nil
  noLink q hq t := by
    rw [List.prefix_nil.mp hq]
    intro he
    exact h t (Option.some.inj he)

theorem of_prefix {q : List Text} (h : IsDirect root ns) (hq : q <+: ns) : IsDirect root q where
  forward hm := h.forward (hq.subset hm)
  noLink p hp := h.noLink p (hp.trans hq)

theorem dropLast (h : IsDirect root ns) : IsDirect root ns.dropLast := h.of_prefix (List.dropLast_prefix ns)

theorem append_singleton {n : Text} (h : IsDirect root ns) (hn : n ≠ Path.parentName)
    (hlink : ∀ t, root.at? (ns ++ [n]) ≠ some (.link t)) : IsDirect root (ns ++ [n]) where
  forward hm := by
    rcases List.mem_append.mp hm with hm | hm
    · exact h.forward hm
    · exact hn (List.mem_singleton.mp hm).symm
  noLink q hq := by
    rcases List.prefix_concat_iff.mp hq with rfl | hq
    · exact hlink
    · exact h.noLink q hq

theorem root_ne_link (h : IsDirect root ns) (t : Text) : root ≠ .link t := by
  intro he
  exact h.noLink [] (List.nil_prefix) t (congrArg some he)

theorem origin (h : IsDirect root ns) (p : Path) : IsDirect root (origin ns p) := by
  unfold Files.origin
  split
  · exact .nil h.root_ne_link
  · exact h

end IsDirect

section Steps

variable {root e : Entry} {links : Nat} {opened : List (List Text)} {done : List Text} {es : List (Text × Entry)}
  {n t : Text}

theorem follow_parent (h : root.at? done = some (.directory es)) (ns : List Text) :
    follow root links done (Path.parentName :: ns) = follow root links done.dropLast ns := by
  rw [follow, h]
  exact if_pos rfl

theorem follow_free (h : root.at? done = some (.directory es)) (hn : n ≠ Path.parentName)
    (hget : Keyed.get? n es = none) (ns : List Text) :
    follow root links done (n :: ns) = if ns.isEmpty then .ok (done ++ [n], none) else .error .missing := by
  rw [follow, h]
  dsimp only
  rw [if_neg hn, hget]

theorem follow_link_zero (h : root.at? done = some (.directory es)) (hn : n ≠ Path.parentName)
    (hget : Keyed.get? n es = some (.link t)) (ns : List Text) :
    follow root 0 done (n :: ns) = .error .tooManyLinks := by
  rw [follow, h]
  dsimp only
  rw [if_neg hn, hget]

theorem follow_link (h : root.at? done = some (.directory es)) (hn : n ≠ Path.parentName)
    (hget : Keyed.get? n es = some (.link t)) (ns : List Text) :
    follow root (links + 1) done (n :: ns) =
      follow root links (origin done (.ofText t)) ((Path.ofText t).parts ++ ns) := by
  rw [follow, h]
  dsimp only
  rw [if_neg hn, hget]

/-- A way goes on in what is no link. -/
theorem follow_child (h : root.at? done = some (.directory es)) (hn : n ≠ Path.parentName)
    (hget : Keyed.get? n es = some e) (hlink : ∀ t, e ≠ .link t) (ns : List Text) :
    follow root links done (n :: ns) = follow root links (done ++ [n]) ns := by
  rw [follow, h]
  dsimp only
  rw [if_neg hn, hget]
  cases e with
  | link t => exact absurd rfl (hlink t)
  | file content changed => rfl
  | directory inside => rfl

theorem follow_file {content : ByteArray} {changed : Int} (h : root.at? done = some (.file content changed))
    (ns : List Text) : follow root links done (n :: ns) = .error .notDirectory := by
  rw [follow, h]

theorem resolveFrom_nil : resolveFrom root opened done [] = .ok done := by rw [resolveFrom]

theorem resolveFrom_parent (ns : List Text) :
    resolveFrom root opened done (Path.parentName :: ns) = resolveFrom root opened done.dropLast ns := by
  rw [resolveFrom, if_pos rfl]

theorem resolveFrom_circle (hn : n ≠ Path.parentName) (hat : root.at? (done ++ [n]) = some (.link t))
    (hopened : done ++ [n] ∈ opened) (ns : List Text) :
    resolveFrom root opened done (n :: ns) = .error (done ++ n :: ns) := by
  rw [resolveFrom, if_neg hn]
  split
  · rw [dif_pos hopened]
  · next hlink => exact absurd hat (hlink t)

/-- A link is read to its end before the way goes on. -/
theorem resolveFrom_link (hn : n ≠ Path.parentName) (hat : root.at? (done ++ [n]) = some (.link t))
    (hopened : done ++ [n] ∉ opened) (ns : List Text) :
    resolveFrom root opened done (n :: ns) =
      match resolveFrom root ((done ++ [n]) :: opened) (origin done (.ofText t)) (Path.ofText t).parts with
      | .ok place => resolveFrom root opened place ns
      | .error circle => .error (circle ++ ns) := by
  rw [resolveFrom, if_neg hn]
  split
  · next target htarget =>
    obtain rfl := Entry.link.inj (Option.some.inj (htarget.symm.trans hat))
    refine (dif_neg hopened).trans ?_
    cases resolveFrom root ((done ++ [n]) :: opened) (origin done (.ofText target)) (Path.ofText target).parts <;> rfl
  · next hlink => exact absurd hat (hlink t)

theorem resolveFrom_child (hn : n ≠ Path.parentName) (hlink : ∀ t, root.at? (done ++ [n]) ≠ some (.link t))
    (ns : List Text) : resolveFrom root opened done (n :: ns) = resolveFrom root opened (done ++ [n]) ns := by
  rw [resolveFrom, if_neg hn]
  split
  · next t hat => exact absurd hat (hlink t)
  · rfl

end Steps

/-- Names lead to a place. `links` counts the links on the way, those that stand in links too. -/
inductive Leads (root : Entry) : List Text → List Text → Nat → List Text → Prop
  | nil (done : List Text) : Leads root done [] 0 done
  | parent {done ns place : List Text} {links : Nat} (h : Leads root done.dropLast ns links place) :
      Leads root done (Path.parentName :: ns) links place
  | link {done ns middle place : List Text} {n t : Text} {inside rest : Nat} (hn : n ≠ Path.parentName)
      (hat : root.at? (done ++ [n]) = some (.link t))
      (hinside : Leads root (origin done (.ofText t)) (Path.ofText t).parts inside middle)
      (hrest : Leads root middle ns rest place) : Leads root done (n :: ns) (inside + rest + 1) place
  | child {done ns place : List Text} {n : Text} {links : Nat} (hn : n ≠ Path.parentName)
      (hlink : ∀ t, root.at? (done ++ [n]) ≠ some (.link t)) (h : Leads root (done ++ [n]) ns links place) :
      Leads root done (n :: ns) links place

namespace Leads

variable {root : Entry} {done todo place place' : List Text} {k k' : Nat}

/-- There is one way only. -/
theorem unique (h : Leads root done todo k place) (h' : Leads root done todo k' place') : k = k' ∧ place = place' := by
  induction h generalizing k' place' with
  | nil done =>
    cases h'
    exact ⟨rfl, rfl⟩
  | parent h ih =>
    cases h' with
    | parent h' => exact ih h'
    | link hn => exact absurd rfl hn
    | child hn => exact absurd rfl hn
  | link hn hat hinside hrest ihinside ihrest =>
    cases h' with
    | parent h' => exact absurd rfl hn
    | link hn' hat' hinside' hrest' =>
      obtain rfl := Entry.link.inj (Option.some.inj (hat.symm.trans hat'))
      obtain ⟨rfl, rfl⟩ := ihinside hinside'
      obtain ⟨rfl, rfl⟩ := ihrest hrest'
      exact ⟨rfl, rfl⟩
    | child hn' hlink => exact absurd hat (hlink _)
  | child hn hlink h ih =>
    cases h' with
    | parent h' => exact absurd rfl hn
    | link hn' hat => exact absurd hat (hlink _)
    | child hn' hlink' h' => exact ih h'

/-- A way over some names and others behind them is one over the first and one over the others. -/
theorem split {ns ms : List Text} (h : Leads root done (ns ++ ms) k place) :
    ∃ middle first second, Leads root done ns first middle ∧ Leads root middle ms second place ∧
      k = first + second := by
  generalize hall : ns ++ ms = todo at h
  induction h generalizing ns with
  | nil done =>
    obtain ⟨rfl, rfl⟩ := List.append_eq_nil_iff.mp hall
    exact ⟨done, 0, 0, .nil done, .nil done, rfl⟩
  | @parent done ns' place links h ih =>
    cases ns with
    | nil =>
      obtain rfl : ms = Path.parentName :: ns' := hall
      exact ⟨done, 0, links, .nil done, .parent h, by omega⟩
    | cons n ns =>
      obtain ⟨rfl, hrest⟩ := List.cons.inj hall
      obtain ⟨middle, first, second, hfirst, hsecond, hlinks⟩ := ih hrest
      exact ⟨middle, first, second, .parent hfirst, hsecond, hlinks⟩
  | @link done ns' middle place n t inside rest hn hat hinside hrest ihinside ihrest =>
    cases ns with
    | nil =>
      obtain rfl : ms = n :: ns' := hall
      exact ⟨done, 0, inside + rest + 1, .nil done, .link hn hat hinside hrest, by omega⟩
    | cons m ns =>
      obtain ⟨rfl, htail⟩ := List.cons.inj hall
      obtain ⟨place', first, second, hfirst, hsecond, hlinks⟩ := ihrest htail
      exact ⟨place', inside + first + 1, second, .link hn hat hinside hfirst, hsecond, by omega⟩
  | @child done ns' place n links hn hlink h ih =>
    cases ns with
    | nil =>
      obtain rfl : ms = n :: ns' := hall
      exact ⟨done, 0, links, .nil done, .child hn hlink h, by omega⟩
    | cons m ns =>
      obtain ⟨rfl, htail⟩ := List.cons.inj hall
      obtain ⟨middle, first, second, hfirst, hsecond, hcount⟩ := ih htail
      exact ⟨middle, first, second, .child hn hlink hfirst, hsecond, hcount⟩

/-- A way that ends somewhere leads there. -/
theorem of_follow {links : Nat} {o : Option Entry} (h : follow root links done todo = .ok (place, o)) :
    ∃ k, Leads root done todo k place := by
  fun_induction follow root links done todo with
  | case1 links done =>
    cases h
    exact ⟨0, .nil _⟩
  | case2 links done ns es hdir ih =>
    obtain ⟨k, hk⟩ := ih h
    exact ⟨k, .parent hk⟩
  | case3 links done n ns es hdir hn hget hlast =>
    obtain rfl : ns = [] := List.isEmpty_iff.mp hlast
    cases h
    have hat : root.at? (done ++ [n]) = none := (Entry.at?_child hdir n).trans hget
    exact ⟨0, .child hn (fun t => by simp [hat]) (.nil _)⟩
  | case4 links done n ns es hdir hn hget hlast => cases h
  | case5 done n ns es hdir hn t hget => cases h
  | case6 done n ns es hdir hn t hget links p ih =>
    have hat : root.at? (done ++ [n]) = some (.link t) := (Entry.at?_child hdir n).trans hget
    obtain ⟨k, hk⟩ := ih h
    obtain ⟨middle, inside, rest, hinside, hrest, -⟩ := hk.split
    exact ⟨inside + rest + 1, .link hn hat hinside hrest⟩
  | case7 links done n ns es hdir hn e hlink hget ih =>
    have hat : root.at? (done ++ [n]) = some e := (Entry.at?_child hdir n).trans hget
    obtain ⟨k, hk⟩ := ih h
    exact ⟨k, .child hn (fun t ht => hlink t (Option.some.inj (hat.symm.trans ht))) hk⟩
  | case8 links done n ns content changed hfile => cases h
  | case9 links done n ns hdir hfile => cases h

/-- What stands in a link that is being read takes as many links as the way, or more. -/
def Within (root : Entry) (k : Nat) (opened : List (List Text)) : Prop :=
  ∀ q ∈ opened, ∀ t, root.at? q = some (.link t) → ∀ inside place,
    Leads root (origin q.dropLast (.ofText t)) (Path.ofText t).parts inside place → k ≤ inside

/-- A way that ends is in no circle: a link on it takes fewer links than any that is being read, so it is none of
these. -/
theorem resolveFrom_eq (h : Leads root done todo k place) {opened : List (List Text)} (hopened : Within root k opened) :
    resolveFrom root opened done todo = .ok place := by
  induction h generalizing opened with
  | nil done => exact resolveFrom_nil
  | parent h ih => exact (resolveFrom_parent _).trans (ih hopened)
  | @link done ns middle place n t inside rest hn hat hinside hrest ihinside ihrest =>
    have hown (inside' : Nat) (middle' : List Text)
        (h : Leads root (origin (done ++ [n]).dropLast (.ofText t)) (Path.ofText t).parts inside' middle') :
        inside = inside' := by
      rw [List.dropLast_concat] at h
      exact (hinside.unique h).1
    have hnew : done ++ [n] ∉ opened := by
      intro hmem
      have hle := hopened _ hmem t hat inside middle (by rwa [List.dropLast_concat])
      omega
    have hwithin : Within root inside ((done ++ [n]) :: opened) := by
      intro q hq t' ht' inside' middle' h
      rcases List.mem_cons.mp hq with rfl | hq
      · obtain rfl := Entry.link.inj (Option.some.inj (hat.symm.trans ht'))
        exact Nat.le_of_eq (hown inside' middle' h)
      · have hle := hopened q hq t' ht' inside' middle' h
        omega
    rw [resolveFrom_link hn hat hnew, ihinside hwithin]
    exact ihrest fun q hq t' ht' inside' middle' h => by
      have hle := hopened q hq t' ht' inside' middle' h
      omega
  | child hn hlink h ih => exact (resolveFrom_child hn hlink _).trans (ih hopened)

end Leads

/-- A way that ends somewhere ends at the place for which the names stand. -/
theorem resolveFrom_of_follow {root : Entry} {links : Nat} {done todo place : List Text} {o : Option Entry}
    (h : follow root links done todo = .ok (place, o)) : resolveFrom root [] done todo = .ok place := by
  obtain ⟨k, hk⟩ := Leads.of_follow h
  exact hk.resolveFrom_eq fun q hq => absurd hq List.not_mem_nil

/-- Where a way ends, what is there, and that the place is the one which the names stand for. -/
theorem follow_spec {root : Entry} {links : Nat} {done todo place : List Text} {o : Option Entry}
    (hdone : IsDirect root done) (h : follow root links done todo = .ok (place, o)) :
    IsDirect root place ∧ o = root.at? place ∧ resolveFrom root [] done todo = .ok place := by
  refine and_assoc.mp ⟨?_, resolveFrom_of_follow h⟩
  fun_induction follow root links done todo with
  | case1 links done =>
    cases h
    exact ⟨hdone, rfl⟩
  | case2 links done ns es hdir ih => exact ih hdone.dropLast h
  | case3 links done n ns es hdir hn hget hlast =>
    cases h
    have hat : root.at? (done ++ [n]) = none := (Entry.at?_child hdir n).trans hget
    exact ⟨hdone.append_singleton hn (fun t => by simp [hat]), hat.symm⟩
  | case4 links done n ns es hdir hn hget hlast => cases h
  | case5 done n ns es hdir hn t hget => cases h
  | case6 done n ns es hdir hn t hget links p ih => exact ih (hdone.origin p) h
  | case7 links done n ns es hdir hn e hlink hget ih =>
    have hat : root.at? (done ++ [n]) = some e := (Entry.at?_child hdir n).trans hget
    exact ih (hdone.append_singleton hn fun t ht => hlink t (Option.some.inj (hat.symm.trans ht))) h
  | case8 links done n ns content changed hfile => cases h
  | case9 links done n ns hdir hfile => cases h

/-- Names without links lead straight down, if there is anything at their end. -/
theorem follow_of_direct {root : Entry} {links : Nat} {done todo : List Text} {e : Entry}
    (hdirect : IsDirect root (done ++ todo)) (h : root.at? (done ++ todo) = some e) :
    follow root links done todo = .ok (done ++ todo, some e) := by
  induction todo generalizing done with
  | nil =>
    rw [List.append_nil] at h ⊢
    rw [follow, h]
  | cons n ns ih =>
    have hsplit : done ++ n :: ns = (done ++ [n]) ++ ns := by simp
    rw [hsplit] at hdirect h ⊢
    have hn : n ≠ Path.parentName := by
      rintro rfl
      exact hdirect.forward (by simp)
    have hbelow := h
    rw [Entry.at?_append, Entry.at?_append_singleton] at hbelow
    obtain ⟨c, hc, hrest⟩ := Option.bind_eq_some_iff.mp hbelow
    obtain ⟨d, hd, hchild⟩ := Option.bind_eq_some_iff.mp hc
    obtain ⟨es, rfl, hget⟩ := Entry.isDirectory_of_child? hchild
    have hnoLink (t : Text) : c ≠ .link t := by
      rintro rfl
      exact hdirect.noLink (done ++ [n]) (List.prefix_append _ _) t ((Entry.at?_child hd n).trans hget)
    rw [follow_child hd hn hget hnoLink]
    exact ih hdirect h

/-- The place that names stand for is reached without links. -/
theorem isDirect_of_resolveFrom {root : Entry} {opened : List (List Text)} {done todo place : List Text}
    (hdone : IsDirect root done) (h : resolveFrom root opened done todo = .ok place) :
    IsDirect root place := by
  fun_induction resolveFrom root opened done todo generalizing place with
  | case1 opened done =>
    cases h
    exact hdone
  | case2 opened done ns ih => exact ih hdone.dropLast h
  | case3 opened done n ns hn t hat hopened => cases h
  | case4 opened done n ns hn t hat hopened middle hmiddle ihinside ihrest =>
    exact ihrest (ihinside (hdone.origin _) hmiddle) h
  | case5 opened done n ns hn t hat hopened circle hcircle ih => cases h
  | case6 opened done n ns hn hlink ih => exact ih (hdone.append_singleton hn hlink) h

/-- Names without links stand for themselves, whatever comes behind them. -/
theorem resolveFrom_append {root : Entry} {opened : List (List Text)} {done ns : List Text}
    (h : IsDirect root (done ++ ns)) (ms : List Text) :
    resolveFrom root opened done (ns ++ ms) = resolveFrom root opened (done ++ ns) ms := by
  induction ns generalizing done with
  | nil => simp
  | cons n ns ih =>
    have hsplit : done ++ n :: ns = (done ++ [n]) ++ ns := by simp
    rw [hsplit] at h ⊢
    have hn : n ≠ Path.parentName := by
      rintro rfl
      exact h.forward (by simp)
    have hlink := h.noLink (done ++ [n]) (List.prefix_append _ _)
    rw [List.cons_append, resolveFrom_child hn hlink]
    exact ih h

/-- Names without links stand for themselves. -/
theorem resolveFrom_of_direct {root : Entry} {opened : List (List Text)} {done todo : List Text}
    (h : IsDirect root (done ++ todo)) : resolveFrom root opened done todo = .ok (done ++ todo) := by
  have happend : resolveFrom root opened done (todo ++ []) = _ := resolveFrom_append h []
  rwa [List.append_nil, resolveFrom_nil] at happend

/-- Only the links of a tree count. -/
theorem resolveFrom_congr {root root' : Entry}
    (h : ∀ ns t, ns ≠ [] → (root.at? ns = some (.link t) ↔ root'.at? ns = some (.link t)))
    (opened : List (List Text)) (done todo : List Text) :
    resolveFrom root opened done todo = resolveFrom root' opened done todo := by
  have hbelow (done : List Text) (n t : Text) := h (done ++ [n]) t (by simp)
  fun_induction resolveFrom root opened done todo with
  | case1 opened done => exact resolveFrom_nil.symm
  | case2 opened done ns ih => exact ih.trans (resolveFrom_parent ns).symm
  | case3 opened done n ns hn t hat hopened =>
    exact (resolveFrom_circle hn ((hbelow done n t).mp hat) hopened ns).symm
  | case4 opened done n ns hn t hat hopened middle hmiddle ihinside ihrest =>
    rw [resolveFrom_link hn ((hbelow done n t).mp hat) hopened, ← ihinside, hmiddle]
    exact ihrest
  | case5 opened done n ns hn t hat hopened circle hcircle ih =>
    rw [resolveFrom_link hn ((hbelow done n t).mp hat) hopened, ← ih, hcircle]
  | case6 opened done n ns hn hlink ih =>
    rw [resolveFrom_child hn fun t hat => hlink t ((hbelow done n t).mpr hat)]
    exact ih

namespace Disk

variable {d : Disk} {p : Path} {e : Entry}

@[simp] theorem names_absolute (d : Disk) (ns : List Text) : d.names ⟨['/'], ns⟩ = ns := rfl

theorem entry_eq_ok : d.entry p = .ok e ↔ ∃ place, d.find p = .ok (place, some e) := by
  unfold entry
  cases h : d.find p with
  | error o =>
    constructor
    · intro h
      cases h
    · rintro ⟨place, h⟩
      cases h
  | ok found =>
    obtain ⟨place, _ | x⟩ := found
    · constructor
      · intro h
        cases h
      · rintro ⟨place, h⟩
        cases h
    · constructor
      · intro h
        cases h
        exact ⟨place, rfl⟩
      · rintro ⟨place, h⟩
        cases h
        rfl

theorem read_eq_ok {content : ByteArray} {changed : Int} :
    d.read p = .ok (content, changed) ↔ d.entry p = .ok (.file content changed) := by
  unfold read
  cases d.entry p with
  | error o => simp
  | ok e => cases e <;> simp

theorem isDirectory_eq_true :
    d.isDirectory p = true ↔ ∃ place es, d.find p = .ok (place, some (.directory es)) := by
  have hentry : d.isDirectory p = true ↔ ∃ es, d.entry p = .ok (.directory es) := by
    unfold isDirectory
    cases d.entry p with
    | error o => simp
    | ok e => cases e <;> simp [Entry.isDirectory]
  rw [hentry]
  constructor
  · rintro ⟨es, he⟩
    obtain ⟨place, hfind⟩ := entry_eq_ok.mp he
    exact ⟨place, es, hfind⟩
  · rintro ⟨place, es, hfind⟩
    exact ⟨es, entry_eq_ok.mpr ⟨place, hfind⟩⟩

/-- What is at the end of names that lead straight down. -/
theorem entry_of_direct {ns : List Text} (hdirect : IsDirect d.root ns) (h : d.root.at? ns = some e) :
    d.entry ⟨['/'], ns⟩ = .ok e :=
  entry_eq_ok.mpr ⟨ns, follow_of_direct hdirect h⟩

/-- Where a path leads is the place that it stands for. -/
theorem find_spec {place : List Text} {o : Option Entry} (hroot : ∀ t, d.root ≠ .link t)
    (h : d.find p = .ok (place, o)) :
    IsDirect d.root place ∧ o = d.root.at? place ∧ d.resolve p = .ok ⟨['/'], place⟩ := by
  obtain ⟨hdirect, ho, hresolve⟩ := follow_spec (.nil hroot) h
  refine ⟨hdirect, ho, ?_⟩
  unfold resolve
  rw [hresolve]

/-- A link is never the end of a way. -/
theorem entry_ne_link (hroot : ∀ t, d.root ≠ .link t) (h : d.entry p = .ok e) (t : Text) :
    e ≠ .link t := by
  obtain ⟨place, hfind⟩ := entry_eq_ok.mp h
  obtain ⟨hdirect, he, -⟩ := find_spec hroot hfind
  rintro rfl
  exact hdirect.noLink place List.prefix_rfl t he.symm

/-- A link is no tree: nothing but itself can be reached in it. -/
theorem root_ne_link (h : d.entry p = .ok e) (he : ∀ t, e ≠ .link t) (t : Text) : d.root ≠ .link t := by
  intro hroot
  obtain ⟨place, hfind⟩ := entry_eq_ok.mp h
  unfold find at hfind
  rw [hroot] at hfind
  cases hn : d.names p with
  | nil =>
    rw [hn, follow] at hfind
    cases hfind
    exact he t rfl
  | cons n ns =>
    rw [hn, follow] at hfind
    cases hfind

/-- Where a path leads to something, it stands for a place that is reached without links. -/
theorem resolved_of_entry (hroot : ∀ t, d.root ≠ .link t) (h : d.entry p = .ok e) :
    ∃ ns, d.resolved p = .ok ⟨['/'], ns⟩ ∧ IsDirect d.root ns ∧ d.root.at? ns = some e := by
  obtain ⟨place, hfind⟩ := entry_eq_ok.mp h
  obtain ⟨hdirect, he, hresolve⟩ := find_spec hroot hfind
  refine ⟨place, ?_, hdirect, he.symm⟩
  unfold resolved
  rw [hresolve]

theorem resolved_of_direct {ns : List Text} (h : IsDirect d.root ns) : d.resolved ⟨['/'], ns⟩ = .ok ⟨['/'], ns⟩ := by
  unfold resolved resolve
  rw [names_absolute, resolveFrom_of_direct (by simpa using h)]
  rfl

/-- A place fails to be found only where links lead around in a circle. -/
theorem exists_circle_of_resolved {f : Failure} (h : d.resolved p = .error f) : ∃ c, f = .circle c := by
  unfold resolved at h
  split at h
  · cases h
  · cases h
    exact ⟨_, rfl⟩

/-- What a path stands for is reached without links, so it stands for itself. -/
theorem direct_of_resolved {q : Path} (hroot : ∀ t, d.root ≠ .link t) (h : d.resolved p = .ok q) :
    ∃ ns, q = ⟨['/'], ns⟩ ∧ IsDirect d.root ns := by
  unfold resolved resolve at h
  cases hplace : resolveFrom d.root [] [] (d.names p) with
  | error ns =>
    rw [hplace] at h
    cases h
  | ok ns =>
    rw [hplace] at h
    cases h
    exact ⟨ns, rfl, isDirect_of_resolveFrom (.nil hroot) hplace⟩

/-- What a path stands for stands for itself. -/
theorem resolved_resolved {q : Path} (h : d.resolved p = .ok q) : d.resolved q = .ok q := by
  by_cases hroot : ∀ t, d.root ≠ .link t
  · obtain ⟨ns, rfl, hdirect⟩ := direct_of_resolved hroot h
    exact resolved_of_direct hdirect
  · -- Below a link there is as little as in an empty directory.
    obtain ⟨t, ht⟩ := not_forall_not.mp hroot
    have hbelow (ns : List Text) (t : Text) (hns : ns ≠ []) :
        d.root.at? ns = some (.link t) ↔ (Entry.directory []).at? ns = some (.link t) := by
      obtain ⟨n, ns, rfl⟩ := List.exists_cons_of_ne_nil hns
      rw [ht]
      rfl
    have hsame (p : Path) : d.resolved p = { d with root := .directory [] }.resolved p := by
      unfold resolved resolve
      rw [resolveFrom_congr hbelow]
      rfl
    rw [hsame] at h ⊢
    obtain ⟨ns, rfl, hdirect⟩ := direct_of_resolved (by simp) h
    exact resolved_of_direct hdirect

/-- What can be read at two paths that stand for one place is the same. -/
theorem eq_of_read {q : Path} {x y : ByteArray × Int} (hplace : d.resolved p = d.resolved q) (hx : d.read p = .ok x)
    (hy : d.read q = .ok y) : x = y := by
  obtain ⟨content, changed⟩ := x
  obtain ⟨content', changed'⟩ := y
  have hp : d.entry p = .ok (.file content changed) := read_eq_ok.mp hx
  have hq : d.entry q = .ok (.file content' changed') := read_eq_ok.mp hy
  have hroot : ∀ t, d.root ≠ .link t := root_ne_link hp (by simp)
  obtain ⟨ns, hns, -, hat⟩ := resolved_of_entry hroot hp
  obtain ⟨ms, hms, -, hat'⟩ := resolved_of_entry hroot hq
  rw [hplace, hms] at hns
  cases hns
  rw [hat] at hat'
  cases hat'
  rfl

end Disk

end CodeManifest.Files
