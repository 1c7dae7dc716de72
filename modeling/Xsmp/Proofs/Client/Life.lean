import Xsmp.Client.Participant

/-!
# The life of a participant

Two things happen to a participant: the session calls it, or its client says something. What
is proved about a participant holds after any list of such inputs, in whatever order they come.
-/

namespace Xsmp.Participant

/-- Something that happens to a participant. -/
inductive Input where
  | called (call : ClientCall)
  | received (message : ClientMessage)

def react (participant : Participant) : Input → Reaction
  | .called call => participant.called call
  | .received message => participant.received message

/-- A participant after some inputs. -/
def after (participant : Participant) (inputs : List Input) : Participant :=
  inputs.foldl (fun participant input => (participant.react input).participant) participant

theorem after_cons (participant : Participant) (input : Input) (inputs : List Input) :
    participant.after (input :: inputs) = (participant.react input).participant.after inputs := rfl

theorem after_append (participant : Participant) (inputs more : List Input) :
    participant.after (inputs ++ more) = (participant.after inputs).after more :=
  List.foldl_append

theorem after_snoc (participant : Participant) (inputs : List Input) (input : Input) :
    participant.after (inputs ++ [input]) =
      ((participant.after inputs).react input).participant :=
  after_append participant inputs [input]

end Xsmp.Participant
