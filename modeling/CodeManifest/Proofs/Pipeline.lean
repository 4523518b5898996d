import CodeManifest.Pipeline
import Mathlib.Logic.Relation

namespace CodeManifest.Pipeline

open Files

variable {α : Type}

/-- What a scan has to do: begin, which may fail, and then go through files. -/
structure Work (α : Type) where
  begin : Except Failure α
  next : α → Text → α
  files : List Text

/-- How far a scan is. -/
inductive Stage (α : Type) where
  | waiting
  | working (progress : α) (files : List Text)
  | ended (outcome : Except Failure α)

def Stage.IsEnded (s : Stage α) : Prop := ∃ o, s = .ended o

namespace Work

variable {w : Work α} {s s' : Stage α}

/-- One step of a scan. There is none once it is over, and it is over at once where it cannot begin. -/
def step? (w : Work α) : Stage α → Option (Stage α)
  | .waiting =>
    match w.begin with
    | .ok p => some (.working p w.files)
    | .error e => some (.ended (.error e))
  | .working p (file :: files) => some (.working (w.next p file) files)
  | .working p [] => some (.ended (.ok p))
  | .ended _ => none

/-- What the scan comes to when nothing else runs. -/
def alone (w : Work α) : Except Failure α := w.begin.map (w.files.foldl w.next)

/-- What a scan that is so far comes to. -/
def outcome (w : Work α) : Stage α → Except Failure α
  | .waiting => w.alone
  | .working p files => .ok (files.foldl w.next p)
  | .ended o => o

/-- How many steps are left. -/
def left (w : Work α) : Stage α → Nat
  | .waiting => w.files.length + 2
  | .working _ files => files.length + 1
  | .ended _ => 0

theorem outcome_of_step (h : w.step? s = some s') : w.outcome s' = w.outcome s := by
  cases s with
  | waiting =>
    cases hb : w.begin with
    | ok p =>
      obtain rfl : Stage.working p w.files = s' := by simpa [step?, hb] using h
      simp [outcome, alone, hb, Except.map]
    | error e =>
      obtain rfl : Stage.ended (.error e) = s' := by simpa [step?, hb] using h
      simp [outcome, alone, hb, Except.map]
  | working p files =>
    cases files with
    | nil =>
      cases h
      rfl
    | cons file files =>
      cases h
      rfl
  | ended o => cases h

theorem left_of_step (h : w.step? s = some s') : w.left s' < w.left s := by
  cases s with
  | waiting =>
    cases hb : w.begin with
    | ok p =>
      obtain rfl : Stage.working p w.files = s' := by simpa [step?, hb] using h
      simp [left]
    | error e =>
      obtain rfl : Stage.ended (.error e) = s' := by simpa [step?, hb] using h
      simp [left]
  | working p files =>
    cases files with
    | nil =>
      cases h
      simp [left]
    | cons file files =>
      cases h
      simp [left]
  | ended o => cases h

theorem exists_step_of_not_ended (h : ¬ s.IsEnded) : ∃ s', w.step? s = some s' := by
  cases s with
  | waiting => cases hb : w.begin <;> simp [step?, hb]
  | working p files => cases files <;> simp [step?]
  | ended o => exact absurd ⟨o, rfl⟩ h

end Work

/-- Both scans as they are set up. -/
structure Works where
  sources : Work Tool.Progress
  schemas : Work Schema.Progress

/-- The scans of the project below a path. -/
def works (d : Disk) (root : Path) (sources sqlFiles dialects : List Text) : Works where
  sources := ⟨(Tool.Scanner.ofRoot d root).map ({ scanner := · }), Tool.Progress.step d, sources⟩
  schemas :=
    ⟨(Schema.Scanner.ofRoot d root dialects).map ({ scanner := · }), Schema.Progress.step d, sqlFiles⟩

/-- How far both scans are. -/
structure Situation where
  sources : Stage Tool.Progress := .waiting
  schemas : Stage Schema.Progress := .waiting

def Situation.IsEnded (s : Situation) : Prop := s.sources.IsEnded ∧ s.schemas.IsEnded

/-- Either scan takes a step. Unless they run at the same time, the scan of the SQL files waits for the
end of the other. -/
inductive Moves (ws : Works) (concurrent : Bool) : Situation → Situation → Prop
  | sources {s : Situation} {t : Stage Tool.Progress} (h : ws.sources.step? s.sources = some t) :
    Moves ws concurrent s { s with sources := t }
  | schemas {s : Situation} {t : Stage Schema.Progress} (turn : concurrent = true ∨ s.sources.IsEnded)
    (h : ws.schemas.step? s.schemas = some t) : Moves ws concurrent s { s with schemas := t }

/-- What any number of steps can lead to. -/
abbrev Reaches (ws : Works) (concurrent : Bool) : Situation → Situation → Prop :=
  Relation.ReflTransGen (Moves ws concurrent)

namespace Moves

variable {ws : Works} {concurrent : Bool} {s s' : Situation}

/-- A step of one scan changes nothing for the other, and nothing in what either comes to. -/
theorem outcome_eq (h : Moves ws concurrent s s') :
    ws.sources.outcome s'.sources = ws.sources.outcome s.sources ∧
      ws.schemas.outcome s'.schemas = ws.schemas.outcome s.schemas := by
  cases h with
  | sources h => exact ⟨Work.outcome_of_step h, rfl⟩
  | schemas _ h => exact ⟨rfl, Work.outcome_of_step h⟩

theorem left_lt (h : Moves ws concurrent s s') :
    ws.sources.left s'.sources + ws.schemas.left s'.schemas <
      ws.sources.left s.sources + ws.schemas.left s.schemas := by
  cases h with
  | sources h => exact Nat.add_lt_add_right (Work.left_of_step h) _
  | schemas _ h => exact Nat.add_lt_add_left (Work.left_of_step h) _

/-- The scans never keep each other waiting for good. -/
theorem exists_of_not_ended (ws : Works) (concurrent : Bool) (h : ¬ s.IsEnded) :
    ∃ s', Moves ws concurrent s s' := by
  by_cases hs : s.sources.IsEnded
  · have hq : ¬ s.schemas.IsEnded := fun hq => h ⟨hs, hq⟩
    obtain ⟨t, ht⟩ := Work.exists_step_of_not_ended hq
    exact ⟨_, .schemas (Or.inr hs) ht⟩
  · obtain ⟨t, ht⟩ := Work.exists_step_of_not_ended hs
    exact ⟨_, .sources ht⟩

end Moves

namespace Reaches

variable {ws : Works} {concurrent : Bool} {s s' : Situation}

theorem outcome_eq (h : Reaches ws concurrent s s') :
    ws.sources.outcome s'.sources = ws.sources.outcome s.sources ∧
      ws.schemas.outcome s'.schemas = ws.schemas.outcome s.schemas := by
  -- The induction is on the steps so far; what each scan will come to stays the same through all of them.
  induction h with
  | refl => exact ⟨rfl, rfl⟩
  | tail _ hmove ih => exact ⟨hmove.outcome_eq.1.trans ih.1, hmove.outcome_eq.2.trans ih.2⟩

/-- Every run can go on to its end; it does so within the steps that are left. -/
theorem exists_ended (ws : Works) (concurrent : Bool) (s : Situation) :
    ∃ s', Reaches ws concurrent s s' ∧ s'.IsEnded := by
  induction hn : ws.sources.left s.sources + ws.schemas.left s.schemas using Nat.strongRecOn
    generalizing s with
  | _ n ih =>
    by_cases hs : s.IsEnded
    · exact ⟨s, .refl, hs⟩
    · obtain ⟨t, ht⟩ := Moves.exists_of_not_ended ws concurrent hs
      obtain ⟨s', hreach, hend⟩ := ih _ (hn ▸ ht.left_lt) t rfl
      exact ⟨s', hreach.head ht, hend⟩

end Reaches

/-- The tools that a scan of source files finds by itself; none if it cannot begin. -/
def toolsAlone (d : Disk) (root : Path) (files : List Text) : List Tool.Descriptor :=
  match Tool.Scanner.ofRoot d root with
  | .ok s => (Tool.scan d s files).tools
  | .error _ => []

/-- The resources that a scan of SQL files finds by itself; none if it cannot begin. -/
def resourcesAlone (d : Disk) (root : Path) (files dialects : List Text) : List Schema.Resource :=
  match Schema.Scanner.ofRoot d root dialects with
  | .ok s => (Schema.scan d s files).resources
  | .error _ => []

theorem toolsOf_alone (d : Disk) (root : Path) (sources sqlFiles dialects : List Text) :
    (toolsOf (works d root sources sqlFiles dialects).sources.alone).1 = toolsAlone d root sources := by
  unfold toolsAlone Work.alone works
  cases Tool.Scanner.ofRoot d root <;> rfl

theorem resourcesOf_alone (d : Disk) (root : Path) (sources sqlFiles dialects : List Text) :
    (resourcesOf (works d root sources sqlFiles dialects).schemas.alone).1 =
      resourcesAlone d root sqlFiles dialects := by
  unfold resourcesAlone Work.alone works
  cases Schema.Scanner.ofRoot d root dialects <;> rfl

/-- The scans that a schedule drives come to what they come to alone. -/
theorem run_alone (d : Disk) (root : Path) (sources sqlFiles dialects : List Text)
    (schedule : List Task) :
    let ws := works d root sources sqlFiles dialects
    let r := run d root sources sqlFiles dialects schedule
    r.tools = (toolsOf ws.sources.alone).1 ∧ r.resources = (resourcesOf ws.schemas.alone).1 := by
  intro ws r
  have hsources := State.run_sources d (start d root sources sqlFiles dialects) schedule
  have hschemas := State.run_schemas d (start d root sources sqlFiles dialects) schedule
  constructor
  · change (toolsOf (((start d root sources sqlFiles dialects).run d schedule).sources.drain
      (Tool.Progress.step d))).1 = _
    rw [hsources]
    rfl
  · change (resourcesOf (((start d root sources sqlFiles dialects).run d schedule).schemas.drain
      (Schema.Progress.step d))).1 = _
    rw [hschemas]
    rfl

/-- Whatever the order in which the scans take their steps, be it that they run at the same time or one
after the other, they come to their ends and find what each finds by itself. So what one of them is given,
and whether it fails, does not show in what the other finds. -/
theorem scans_keep_apart (d : Disk) (root : Path) (sources sqlFiles dialects : List Text) :
    let ws := works d root sources sqlFiles dialects
    (∀ concurrent s, Reaches ws concurrent {} s →
      (∃ s', Reaches ws concurrent s s' ∧ s'.IsEnded) ∧
      ∀ o o', s = ⟨.ended o, .ended o'⟩ →
        (toolsOf o).1 = toolsAlone d root sources ∧
        (resourcesOf o').1 = resourcesAlone d root sqlFiles dialects) ∧
    ∀ schedule,
      (run d root sources sqlFiles dialects schedule).tools = toolsAlone d root sources ∧
      (run d root sources sqlFiles dialects schedule).resources =
        resourcesAlone d root sqlFiles dialects := by
  intro ws
  have htools := toolsOf_alone d root sources sqlFiles dialects
  have hresources := resourcesOf_alone d root sources sqlFiles dialects
  constructor
  · intro concurrent s hs
    refine ⟨Reaches.exists_ended ws concurrent s, ?_⟩
    rintro o o' rfl
    obtain ⟨ho, ho'⟩ := hs.outcome_eq
    rw [← htools, ← hresources]
    exact ⟨congrArg (fun x => (toolsOf x).1) ho, congrArg (fun x => (resourcesOf x).1) ho'⟩
  · intro schedule
    obtain ⟨ht, hr⟩ := run_alone d root sources sqlFiles dialects schedule
    exact ⟨ht.trans htools, hr.trans hresources⟩

end CodeManifest.Pipeline
