import ScriptBridge.Engine

/-! An engine that answers from prepared queues and keeps what it was asked. -/
namespace ScriptBridge

structure Scripted where
  replies : List (Except EngineError Wire)
  outcomes : List (Except EngineError Unit)
  /-- what has been asked, in order -/
  received : List Request

namespace Scripted

def empty : Scripted := ⟨[], [], []⟩

def feed (s : Scripted) (replies : List (Except EngineError Wire)) (outcomes : List (Except EngineError Unit)) :
    Scripted :=
  { s with replies := s.replies ++ replies, outcomes := s.outcomes ++ outcomes }

/-- Beyond its queues the engine answers null, and succeeds. -/
def engine : Engine Scripted where
  evaluate script s :=
    ⟨s.replies.head?.getD (.ok .null),
      { s with replies := s.replies.tail, received := s.received ++ [.evaluate script] }, []⟩
  execute script s :=
    ⟨s.outcomes.head?.getD (.ok ()),
      { s with outcomes := s.outcomes.tail, received := s.received ++ [.execute script] }, []⟩

end Scripted
end ScriptBridge
