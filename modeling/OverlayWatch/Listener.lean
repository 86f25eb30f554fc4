/-!
# Listeners

A listener is known by what it does: given the calls it has had, the present one last, it makes
requests of the one who called and then returns or fails.

* `Failure`     an error handed back, or a panic with or without a text;
* `Reaction`    the requests made during one call, and how the call ended;
* `Behaviour`   a reaction for every history of calls;
* `Script`      cues by call number, the usual way to give a behaviour.
-/

namespace OverlayWatch

inductive Failure where
  | returned (message : String)
  | panicked (text : Option String)
deriving DecidableEq, Repr

/-- what is reported of a failure -/
def Failure.message : Failure → String
  | .returned message => "listener failed: " ++ message
  | .panicked (some text) => "panicked: " ++ text
  | .panicked none => "panicked"

structure Reaction (ρ : Type) where
  requests : List ρ
  failure : Option Failure
deriving Repr

/-- nothing asked, nothing wrong -/
def Reaction.quiet {ρ : Type} : Reaction ρ := ⟨[], none⟩

abbrev Behaviour (γ ρ : Type) := List γ → Reaction ρ

/-- takes every call and does nothing -/
def Behaviour.quiet {γ ρ : Type} : Behaviour γ ρ := fun _ => .quiet

/-! ## scripts -/

inductive Action (ρ : Type) where
  | request (r : ρ)
  | fail (f : Failure)
deriving Repr

/-- an action and the number of the call that it is for; 0 stands for every call -/
structure Cue (ρ : Type) where
  call : Nat
  action : Action ρ
deriving Repr

abbrev Script (ρ : Type) := List (Cue ρ)

/-- a failure ends the call: what comes after it is left out -/
def Reaction.ofActions {ρ : Type} : List (Action ρ) → Reaction ρ
  | [] => .quiet
  | .request r :: rest =>
    let reaction := ofActions rest
    { reaction with requests := r :: reaction.requests }
  | .fail f :: _ => ⟨[], some f⟩

theorem Reaction.ofActions_nil {ρ : Type} : Reaction.ofActions ([] : List (Action ρ)) = .quiet := rfl

def Script.behaviour {γ ρ : Type} (script : Script ρ) : Behaviour γ ρ := fun calls =>
  .ofActions ((script.filter fun cue => cue.call == 0 || cue.call == calls.length).map Cue.action)

end OverlayWatch
