import NameGuard.Holder

/-!
# Sessions with a holder

A session is a row of actions on one holder: writing, asking, reading, taking and clearing. Each
action has an answer.

* `Holder.perform` — one action;
* `Holder.replay` — the answers to some actions, and the holder after each.
-/

set_option autoImplicit false

namespace NameGuard

/-- What is done with a holder. -/
inductive Action where
  | write (value : Value)
  | check (value : Value)
  | accepts (value : Value)
  | read
  | take
  | clear

inductive Answer where
  | written
  | refused (error : HolderError)
  | report (report : Report)
  | verdict (accepted : Bool)
  | value (stored : Option Value)
  | cleared

namespace Holder

/-- The answer to an action, and the holder afterwards. -/
def perform (holder : Holder) : Action → Answer × Holder
  | .write value =>
    match holder.write value with
    | (.ok (), next) => (.written, next)
    | (.error e, next) => (.refused e, next)
  | .check value => (.report (holder.check value), holder)
  | .accepts value => (.verdict (holder.accepts value), holder)
  | .read => (.value holder.stored, holder)
  | .take => (.value holder.take.1, holder.take.2)
  | .clear => (.cleared, holder.clear)

/-- The answers to some actions, each with the holder after it. -/
def replay (holder : Holder) : List Action → List (Answer × Holder)
  | [] => []
  | action :: rest => holder.perform action :: (holder.perform action).2.replay rest

def after (holder : Holder) (actions : List Action) : Holder :=
  actions.foldl (fun h action => (h.perform action).2) holder

end Holder

end NameGuard
