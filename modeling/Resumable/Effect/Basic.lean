import Resumable.Effect.Kind
import Resumable.Value.Text

namespace Resumable

inductive Effect (Artifact Producer Computation : Type) where
  | render (artifact : Artifact)
  | await (producer : Producer) (keys : Option (List Value))
  | hold (initial : Value)
  | compute (computation : Computation) (keys : List Value)

/-- What a procedure answers to a resumption: an effect, or its final artifact. -/
inductive Yielded (Artifact Producer Computation : Type) where
  | effect (effect : Effect Artifact Producer Computation)
  | complete (artifact : Artifact)

variable {A P C : Type}

namespace Effect

def kind : Effect A P C → EffectKind
  | render _ => .render
  | await _ _ => .await
  | hold _ => .hold
  | compute _ _ => .compute

def display (displayArtifact : A → String) : Effect A P C → String
  | render a => "Render(" ++ displayArtifact a ++ ")"
  | await _ none => "AwaitFor \x7b cache_by: None, .. \x7d"
  | await _ (some keys) =>
    "AwaitFor \x7b cache_by: Some(" ++ Value.displayKeys keys ++ "), .. \x7d"
  | hold initial => "HoldState \x7b default: " ++ initial.display ++ " \x7d"
  | compute _ keys => "Compute \x7b keys: " ++ Value.displayKeys keys ++ ", .. \x7d"

end Effect

def Yielded.display (displayArtifact : A → String) : Yielded A P C → String
  | effect e => "Effect(" ++ e.display displayArtifact ++ ")"
  | complete a => "Complete(" ++ displayArtifact a ++ ")"

end Resumable
