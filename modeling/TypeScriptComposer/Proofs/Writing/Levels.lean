import TypeScriptComposer.Proofs.Layout.Margins
import TypeScriptComposer.Proofs.Template.Depth
import TypeScriptComposer.Proofs.Writing.Events

/-!
# Writing at a level

Where a script is written decides nothing about it: the same events happen whatever the writer has
written and on whatever level it is, and they leave the level as they find it. So two renders that
begin in the same state, but at different levels, go through the same events side by side.
-/

set_option autoImplicit false

namespace TypeScriptComposer

open TypeScriptComposer.Action (settles)

namespace Writing
variable {outputs : Outputs}

def onWriter (w : Writing) (v : Writer) : Writing := { w with writer := v }

theorem act_onWriter (w : Writing) (v : Writer) {a : Action} (h : a.site? = none) :
    (w.onWriter v).act outputs a =
      (w.act outputs a).onWriter (Event.write v (.did a (w.textOf outputs a))) := by
  cases a with
  | declare o => simp [Action.site?] at h
  | reference o => simp [act, Writing.reference, onWriter, Event.write, textOf]
  | _ => rfl

theorem perform_onWriter (actions : List Action) (w : Writing) (v : Writer) :
    perform outputs actions (w.onWriter v) =
      (perform outputs actions w).onWriter ((events outputs actions w).foldl Event.write v) := by
  fun_induction events outputs actions w generalizing v with
  | case1 => rw [perform, perform]; rfl
  | case2 o rest w due inner ihInner ihRest =>
    have hemit : (w.onWriter v).emit o = (w.emit o).onWriter v := rfl
    rw [perform_declare_of_isDue due, perform_declare_of_isDue (w := w.onWriter v) due, hemit,
      ihInner, ihRest]
    simp only [List.foldl_cons, List.foldl_append]
    rfl
  | case3 o rest w notDue ih =>
    have hnot : w.isDue outputs o = false := by simpa using notDue
    rw [perform_declare_of_not_isDue hnot, perform_declare_of_not_isDue (w := w.onWriter v) hnot,
      ih]
    rfl
  | case4 a rest w hsite ih =>
    have hnone := site?_eq_none hsite
    rw [perform_cons_of_site? hnone, perform_cons_of_site? hnone, act_onWriter w v hnone, ih]
    rfl

end Writing

theorem Event.write_behind (w : Writer) (front : String) (e : Event) :
    Event.write (w.behind front) e = (Event.write w e).behind front := by
  cases e with
  | did a text =>
    cases a with
    | raise => rfl
    | lower => rfl
    | _ => exact w.write_behind front text
  | _ => rfl

theorem Event.foldl_write_behind (w : Writer) (front : String) (es : List Event) :
    es.foldl Event.write (w.behind front) = (es.foldl Event.write w).behind front := by
  induction es generalizing w with
  | nil => rfl
  | cons e es ih => rw [List.foldl_cons, Event.write_behind, ih, List.foldl_cons]

namespace Course
variable {outputs : Outputs} {actions : List Action} {es : List Event} {depth n : Nat}
  {indent : Indent} {w w' : Writer}

/-- One action on two writers, `depth` raises of which are still open. -/
theorem shifted_did {a : Action} {rest : List Action} (text : String) (hsite : a.site? = none)
    (hsettles : settles depth (a :: rest) = true) (hdepth : depth ≤ w.level)
    (h : w.Shifted indent n w') : ∃ depth', settles depth' rest = true ∧
      depth' + w.level = depth + (Event.write w (.did a text)).level ∧
      (Event.write w (.did a text)).Shifted indent n (Event.write w' (.did a text)) := by
  cases a with
  | declare o => simp [Action.site?] at hsite
  | raise =>
    refine ⟨depth + 1, by rwa [settles] at hsettles, ?_, h.raise⟩
    simp only [Event.write, Writer.raise]
    omega
  | lower =>
    cases depth with
    | zero => simp [settles] at hsettles
    | succ depth =>
      refine ⟨depth, by rwa [settles] at hsettles, ?_, h.lower (by omega)⟩
      simp only [Event.write, Writer.lower]
      omega
  | _ =>
    refine ⟨depth, by rwa [settles] at hsettles, ?_, h.write text⟩
    exact congrArg (depth + ·) (w.level_write text).symm

/-- The events of a script, on two writers: the right one stays behind by the same levels, and the
raises that were open are taken back. -/
theorem shifted (hcourse : Course outputs actions es) (hsettles : settles depth actions = true)
    (hdepth : depth ≤ w.level) (h : w.Shifted indent n w') :
    (es.foldl Event.write w).level + depth = w.level ∧
      (es.foldl Event.write w).Shifted indent n (es.foldl Event.write w') := by
  induction hcourse generalizing depth w w' with
  | nil =>
    have hzero : depth = 0 := by simpa [settles] using hsettles
    exact ⟨by simp [hzero], h⟩
  | did text hsite _ ih =>
    obtain ⟨depth', hrest, hlevel, hnext⟩ := shifted_did text hsite hsettles hdepth h
    obtain ⟨hend, hshift⟩ := ih hrest (by omega) hnext
    exact ⟨by rw [List.foldl_cons]; omega, hshift⟩
  | passed _ ih => exact ih (by rwa [settles] at hsettles) hdepth h
  | @declared o rest inner es _ _ ihInner ihRest =>
    rw [settles] at hsettles
    obtain ⟨hinner, hshift⟩ := ihInner (Template.settles_script _) (Nat.zero_le _) h
    obtain ⟨hend, hshift'⟩ := ihRest hsettles (by omega) hshift
    have hsplit (v : Writer) : (Event.began o :: (inner ++ .ended o :: es)).foldl Event.write v =
        es.foldl Event.write (inner.foldl Event.write v) := by
      simp only [List.foldl_cons, List.foldl_append]
      rfl
    rw [hsplit, hsplit]
    exact ⟨by omega, hshift'⟩

end Course

end TypeScriptComposer
