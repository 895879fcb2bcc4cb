/-!
# The phases of a running chart

    stopped -> stabilizing -> waiting -> processing
                    ^                        |
                    +------------------------+
-/

namespace Statechart

/-- The phase of an engine. -/
inductive Phase
  | stopped
  | stabilizing
  | waiting
  | processing
  deriving DecidableEq, Repr

namespace Phase

/-- A phase as messages name it. -/
def describe : Phase → String
  | stopped => "stopped"
  | stabilizing => "stabilizing"
  | waiting => "waiting for an external event"
  | processing => "processing an external event"

end Phase

/-- An operation that an engine refuses in some phases. -/
inductive Operation
  | start
  | stop
  | inject
  | process
  | run
  deriving DecidableEq, Repr

namespace Operation

/-- An operation as messages name it. -/
def describe : Operation → String
  | start => "start"
  | stop => "stop"
  | inject => "inject event"
  | process => "process an external event"
  | run => "run"

end Operation

end Statechart
