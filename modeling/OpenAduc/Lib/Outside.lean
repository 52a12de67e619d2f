import Mathlib.Logic.Relation
import OpenAduc.Lib.Dialogue

namespace Dialogue
open Relation (ReflTransGen)

/-- How the outside's state changes: by itself, and as it answers. -/
structure Outside (Q : Type) (A : Q → Type) (ε W : Type) where
  drifts : W → W → Prop
  answers (w : W) (q : Q) : Except ε (A q) → W → Prop

namespace Outside
variable {Q : Type} {A : Q → Type} {ε W α β : Type}

/-- From `w` on, every question is asked where `G` holds and every end meets `P`, however the
outside drifts between. -/
def Holds (O : Outside Q A ε W) (G : W → Q → Prop) (P : W → Except ε α → Prop) : W → Dialogue Q A ε α → Prop
  | w, done result => ∀ w', ReflTransGen O.drifts w w' → P w' result
  | w, ask q next =>
    ∀ w', ReflTransGen O.drifts w w' → G w' q ∧ ∀ x w'', O.answers w' q x w'' → O.Holds G P w'' (next x)

variable {O : Outside Q A ε W} {G G' : W → Q → Prop} {P P' : W → Except ε α → Prop} {w w' : W}
    {m : Dialogue Q A ε α}

theorem Holds.drift (holds : O.Holds G P w m) (drifts : O.drifts w w') : O.Holds G P w' m := by
  cases m with
  | done result => exact fun _ later => holds _ (.head drifts later)
  | ask q next => exact fun _ later => holds _ (.head drifts later)

theorem Holds.asked {q : Q} {next : Except ε (A q) → Dialogue Q A ε α}
    (holds : O.Holds G P w (ask q next)) : G w q :=
  (holds w .refl).1

theorem Holds.answered {q : Q} {next : Except ε (A q) → Dialogue Q A ε α} {x : Except ε (A q)}
    (holds : O.Holds G P w (ask q next))
    (answers : O.answers w q x w') : O.Holds G P w' (next x) :=
  (holds w .refl).2 x w' answers

theorem Holds.ended {result : Except ε α} (holds : O.Holds G P w (done result)) : P w result := holds w .refl

theorem Holds.mono (holds : O.Holds G P w m) (guard : ∀ w q, G w q → G' w q)
    (meets : ∀ w r, P w r → P' w r) : O.Holds G' P' w m := by
  induction m generalizing w with
  | done result => exact fun w' later => meets w' result (holds w' later)
  | ask q next ih =>
    refine fun w' later => ⟨guard w' q (holds w' later).1, fun x w'' answers => ?_⟩
    exact ih x ((holds w' later).2 x w'' answers)

theorem Holds.chain {R : W → Except ε β → Prop} {f : α → Dialogue Q A ε β} (first : O.Holds G P w m)
    (rest : ∀ w a, P w (.ok a) → O.Holds G R w (f a))
    (threw : ∀ w e, P w (.error e) → R w (.error e)) : O.Holds G R w (m >>= f) := by
  induction m generalizing w with
  | done result =>
    cases result with
    | ok a => exact rest w a first.ended
    | error e => exact fun w' later => threw w' e (first w' later)
  | ask q next ih => exact fun w' later =>
    ⟨(first w' later).1, fun x w'' answers => ih x ((first w' later).2 x w'' answers)⟩

theorem Holds.catching {handler : ε → Dialogue Q A ε α} (first : O.Holds G P w m)
    (ended : ∀ w a, P w (.ok a) → P' w (.ok a))
    (rest : ∀ w e, P w (.error e) → O.Holds G P' w (handler e)) : O.Holds G P' w (tryCatch m handler) := by
  induction m generalizing w with
  | done result =>
    cases result with
    | ok a => exact fun w' later => ended w' a (first w' later)
    | error e => exact rest w e first.ended
  | ask q next ih => exact fun w' later =>
    ⟨(first w' later).1, fun x w'' answers => ih x ((first w' later).2 x w'' answers)⟩

theorem holds_pure {a : α} (meets : ∀ w', ReflTransGen O.drifts w w' → P w' (.ok a)) :
    O.Holds G P w (pure a) := meets

theorem holds_throw {e : ε} (meets : ∀ w', ReflTransGen O.drifts w w' → P w' (.error e)) :
    O.Holds G P w (throw e) := meets

theorem holds_call {q : Q} {P : W → Except ε (A q) → Prop} (guard : ∀ w', ReflTransGen O.drifts w w' → G w' q)
    (meets : ∀ w' x w'' w₃, ReflTransGen O.drifts w w' → O.answers w' q x w'' →
      ReflTransGen O.drifts w'' w₃ → P w₃ x) :
    O.Holds G P w (call q) :=
  fun w' later => ⟨guard w' later, fun x w'' answers _ after => meets w' x w'' _ later answers after⟩

end Outside
end Dialogue
