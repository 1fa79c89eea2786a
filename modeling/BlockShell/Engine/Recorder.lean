import BlockShell.Engine.Basic

/-!
# The recorder

An engine for trying out a shell: it records every call, fails as often as failures are queued, in
their order, and lists what it was given.
-/

namespace BlockShell

/-- The calls so far, and what is still to be answered. -/
structure Recorder where
  /-- The calls received, the first one first. -/
  calls : List Call
  /-- The messages of the failures to come. -/
  failures : List String
  listing : List Summary
  deriving Repr, DecidableEq

namespace Recorder

/-- Takes up a call, which fails if a failure is queued. -/
def record (call : Call) (r : Recorder) : Except String Unit × Recorder :=
  let calls := r.calls ++ [call]
  match r.failures with
  | [] => (.ok (), { r with calls })
  | failure :: failures => (.error failure, { r with calls, failures })

/-- The recorder as an engine. -/
def engine : Engine (StateM Recorder) String where
  change c := record (.change c)
  list := fun r => match record .list r with
    | (.ok (), r) => (.ok r.listing, r)
    | (.error failure, r) => (.error failure, r)
  describe := id

end Recorder

end BlockShell
