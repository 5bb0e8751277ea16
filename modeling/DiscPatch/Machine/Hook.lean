/-!
# Hooks

A hook intercepts a range of addresses. It is dropped as soon as code in its range is changed.
-/

namespace DiscPatch.Machine

/-- An intercept over the addresses from `start` up to `stop`. -/
structure Hook where
  /-- the first address -/
  start : Int
  /-- the first address after the range -/
  stop : Int
  /-- the name it was registered under -/
  name : String
  deriving DecidableEq, Repr

/-- Whether a hook lies wholly in front of or behind the range from `start` up to `stop`. -/
def Hook.clearOf (hook : Hook) (start stop : Int) : Bool :=
  hook.stop ≤ start || stop ≤ hook.start

/-- The hooks that stay when the range from `start` up to `stop` is changed, and how many go. -/
def dropHooks (hooks : List Hook) (start stop : Int) : List Hook × Nat :=
  let kept := hooks.filter (·.clearOf start stop)
  (kept, hooks.length - kept.length)

end DiscPatch.Machine
