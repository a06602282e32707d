import HomeControl.Home.Basic

/-!
# Replaying actions

What a home becomes when a list of actions is applied to it one after the other, those it refuses
being passed over.
-/

namespace HomeControl.Home

/-- The home after some actions. -/
def replay (h : Home) (as : List Action) : Home :=
  as.foldl applyOrKeep h

@[simp] theorem replay_nil (h : Home) : h.replay [] = h := rfl

/-- The first action is applied, or passed over, before the rest. -/
@[simp] theorem replay_cons (h : Home) (a : Action) (as : List Action) :
    h.replay (a :: as) = (h.applyOrKeep a).replay as := rfl

/-- To replay one list behind another is to replay the second from where the first has led. -/
@[simp] theorem replay_append (h : Home) (as bs : List Action) :
    h.replay (as ++ bs) = (h.replay as).replay bs :=
  List.foldl_append

/-- An accepted action is not passed over. -/
theorem applyOrKeep_of_ok {h h' : Home} {a : Action} (ha : h.apply a = .ok h') :
    h.applyOrKeep a = h' := by
  simp [applyOrKeep, ha]

end HomeControl.Home
