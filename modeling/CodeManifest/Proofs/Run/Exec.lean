import CodeManifest.Run
import Mathlib.Tactic.Common

namespace CodeManifest.Run

open Log

variable {α β : Type}

/-- How a part of a run ends, and the session afterwards. -/
def exec (x : Run α) (s : Session) : Except Failure α × Session := x.run.run s

@[simp] theorem exec_get (s : Session) : exec get s = (.ok s, s) := rfl

@[simp] theorem exec_report (r : Record) (s : Session) : exec (report r) s = (.ok (), s.report r) := rfl

@[simp] theorem exec_lift (r : Except Failure α) (s : Session) : exec (lift r) s = (r, s) := rfl

theorem exec_bind (x : Run α) (f : α → Run β) (s : Session) :
    exec (x >>= f) s = match exec x s with
      | (.ok a, s') => exec (f a) s'
      | (.error e, s') => (.error e, s') := by
  unfold exec
  simp only [bind, ExceptT.bind, ExceptT.mk, StateT.bind, ExceptT.bindCont, ExceptT.run, StateT.run]
  cases x s with
  | mk result s' => cases result <;> rfl

theorem exec_tryCatch (x : Run α) (f : Failure → Run α) (s : Session) :
    exec (tryCatch x f) s = match exec x s with
      | (.ok a, s') => (.ok a, s')
      | (.error e, s') => exec (f e) s' := by
  unfold exec
  simp only [tryCatch, tryCatchThe, MonadExceptOf.tryCatch, ExceptT.tryCatch, ExceptT.mk, bind, StateT.bind,
    ExceptT.run, StateT.run]
  cases x s with
  | mk result s' => cases result <;> rfl

theorem exec_bind_of_ok {x : Run α} {f : α → Run β} {s s' : Session} {a : α} (h : exec x s = (.ok a, s')) :
    exec (x >>= f) s = exec (f a) s' := by
  rw [exec_bind, h]

theorem exec_bind_of_error {x : Run α} {f : α → Run β} {s s' : Session} {e : Failure}
    (h : exec x s = (.error e, s')) : exec (x >>= f) s = (.error e, s') := by
  rw [exec_bind, h]

/-- A run that ends well comes through each of its parts. -/
theorem exists_of_exec_bind {x : Run α} {f : α → Run β} {s s' : Session} {b : β}
    (h : exec (x >>= f) s = (.ok b, s')) :
    ∃ a s'', exec x s = (.ok a, s'') ∧ exec (f a) s'' = (.ok b, s') := by
  rw [exec_bind] at h
  rcases hx : exec x s with ⟨_ | a, s''⟩
  · rw [hx] at h
    cases h
  · rw [hx] at h
    exact ⟨a, s'', rfl, h⟩

theorem exec_reportAll (rs : List Record) (s : Session) :
    exec (reportAll rs) s = (.ok (), rs.foldl Session.report s) := by
  induction rs generalizing s with
  | nil => rfl
  | cons r rs ih =>
    have hstep : reportAll (r :: rs) = report r >>= fun _ => reportAll rs := rfl
    rw [hstep, exec_bind_of_ok (exec_report r s), ih]
    rfl

theorem exec_reach (p : Path) (s : Session) :
    exec (reach p) s = (if p.hasNull then .error (.defect .outOfRange) else .ok (), s) := by
  unfold reach
  split <;> rfl

/-- Why a file, or the directories that lead to it, could not be made. -/
def refusal (what : Text) (p : Path) (e : Files.Error) : Fault :=
  ⟨.manifest, "Could not write ".toList ++ what ++ " to ".toList ++ p.render ++ ':' :: ' ' :: e.message, []⟩

theorem exec_write (what : Text) (p : Path) (t : Text) (s : Session) :
    exec (write what p t) s =
      if p.hasNull then (.error (.defect .outOfRange), s)
      else match s.disk.write p t s.now.micros with
        | .ok d => (.ok (), { s with disk := d })
        | .error e => (.error (.fault (refusal what p e)), s) := by
  unfold write
  rw [exec_bind, exec_reach]
  by_cases hnull : p.hasNull = true
  · rw [if_pos hnull, if_pos hnull]
  · rw [if_neg hnull, if_neg hnull]
    dsimp only
    rw [exec_bind_of_ok (exec_get s)]
    cases s.disk.write p t s.now.micros <;> rfl

theorem exec_makeRoom (p : Path) (s : Session) :
    exec (makeRoom p) s =
      if p.parent.hasNull then (.error (.defect .outOfRange), s)
      else match s.disk.makeDirectories p.parent with
        | (d, none) => (.ok (), { s with disk := d })
        | (d, some e) => (.error (.fault (refusal "manifest" p e)), { s with disk := d }) := by
  unfold makeRoom
  rw [exec_bind, exec_reach]
  by_cases hnull : p.parent.hasNull = true
  · rw [if_pos hnull, if_pos hnull]
  · rw [if_neg hnull, if_neg hnull]
    dsimp only
    rw [exec_bind_of_ok (exec_get s)]
    rcases s.disk.makeDirectories p.parent with ⟨d, _ | e⟩ <;> rfl

end CodeManifest.Run
