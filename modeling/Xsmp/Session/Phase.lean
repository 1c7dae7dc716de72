/-!
# Phases of a session

A session starts its programs group by group, then runs, then shuts down. The
phases are numbered in that order. A session goes through the phases before
`running` by itself and only goes back when a shutdown is cancelled.
-/

namespace Xsmp

inductive Phase where
  | startup
  | initialization
  | windowManager
  | panel
  | desktop
  | application
  | running
  | shutdown
  deriving DecidableEq

namespace Phase

/-- The place of a phase in the life of a session. -/
def rank : Phase → Nat
  | .startup => 0
  | .initialization => 1
  | .windowManager => 2
  | .panel => 3
  | .desktop => 4
  | .application => 5
  | .running => 6
  | .shutdown => 7

instance : LT Phase := ⟨fun p q => p.rank < q.rank⟩

instance (p q : Phase) : Decidable (p < q) := inferInstanceAs (Decidable (p.rank < q.rank))

instance : Ord Phase := ⟨fun p q => compare p.rank q.rank⟩

/-- The phase that follows. The last one is followed by itself. -/
def next : Phase → Phase
  | .startup => .initialization
  | .initialization => .windowManager
  | .windowManager => .panel
  | .panel => .desktop
  | .desktop => .application
  | .application => .running
  | .running => .shutdown
  | .shutdown => .shutdown

/-- The phases that a session goes through by itself after this one. -/
def upcoming : Phase → List Phase
  | .startup => [.initialization, .windowManager, .panel, .desktop, .application, .running]
  | .initialization => [.windowManager, .panel, .desktop, .application, .running]
  | .windowManager => [.panel, .desktop, .application, .running]
  | .panel => [.desktop, .application, .running]
  | .desktop => [.application, .running]
  | .application => [.running]
  | .running => []
  | .shutdown => []

/-- The phase named by a manifest. Programs with any other tag start with the
regular applications. -/
def ofTag : String → Phase
  | "Initialization" => .initialization
  | "WindowManager" => .windowManager
  | "Panel" => .panel
  | "Desktop" => .desktop
  | _ => .application

def name : Phase → String
  | .startup => "startup"
  | .initialization => "initialization"
  | .windowManager => "window-manager"
  | .panel => "panel"
  | .desktop => "desktop"
  | .application => "application"
  | .running => "running"
  | .shutdown => "shutdown"

/-- Before `running`, the phases to come are the next one and those that come after it. -/
theorem upcoming_eq_cons {p : Phase} (h : p < .running) : p.upcoming = p.next :: p.next.upcoming := by
  cases p <;> first | rfl | exact absurd h (by decide)

theorem upcoming_ne_shutdown (p : Phase) : Phase.shutdown ∉ p.upcoming := by
  cases p <;> decide

end Phase

end Xsmp
