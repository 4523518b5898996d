import CodeManifest.Text

namespace CodeManifest.Text

/-- Is the first text before the second, or the same? -/
def le : Text → Text → Bool
  | [], _ => true
  | _ :: _, [] => false
  | c :: s, d :: t => if c = d then le s t else c.toNat < d.toNat

theorem le_refl (t : Text) : le t t = true := by
  induction t with
  | nil => rfl
  | cons c t ih => simp [le, ih]

/-- The texts in order, each once. -/
def sorted (ts : List Text) : List Text := ts.eraseDups.mergeSort le

end CodeManifest.Text
