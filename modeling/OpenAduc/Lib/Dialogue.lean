import Mathlib.Data.List.Basic

/-- A program that asks questions of `Q` and goes on by each one's answer, or throws. -/
inductive Dialogue (Q : Type) (A : Q → Type) (ε α : Type) : Type
  | done (result : Except ε α)
  | ask (q : Q) (next : Except ε (A q) → Dialogue Q A ε α)

namespace Dialogue
variable {Q : Type} {A : Q → Type} {ε α β : Type}

/-- A question and how it was answered. -/
structure Exchange (Q : Type) (A : Q → Type) (ε : Type) where
  question : Q
  answer : Except ε (A question)

def bind : Dialogue Q A ε α → (α → Dialogue Q A ε β) → Dialogue Q A ε β
  | done (.ok a), f => f a
  | done (.error e), _ => done (.error e)
  | ask q next, f => ask q fun x => (next x).bind f

def catching : Dialogue Q A ε α → (ε → Dialogue Q A ε α) → Dialogue Q A ε α
  | done (.ok a), _ => done (.ok a)
  | done (.error e), handler => handler e
  | ask q next, handler => ask q fun x => (next x).catching handler

instance : Monad (Dialogue Q A ε) where
  pure a := done (.ok a)
  bind := bind

instance : MonadExceptOf ε (Dialogue Q A ε) where
  throw e := done (.error e)
  tryCatch := catching

def call (q : Q) : Dialogue Q A ε (A q) := ask q done

/-- After these exchanges it asks `q`. -/
inductive Asks : Dialogue Q A ε α → List (Exchange Q A ε) → Q → Prop
  | now {q : Q} {next : Except ε (A q) → Dialogue Q A ε α} : Asks (ask q next) [] q
  | later {q q' : Q} {next : Except ε (A q) → Dialogue Q A ε α} {trail : List (Exchange Q A ε)}
    (x : Except ε (A q)) :
      Asks (next x) trail q' → Asks (ask q next) (⟨q, x⟩ :: trail) q'

/-- Asked of one who answers each question always alike, what it comes to and the exchanges. -/
def run (answers : ∀ q, Except ε (A q)) : Dialogue Q A ε α → Except ε α × List (Exchange Q A ε)
  | done result => (result, [])
  | ask q next =>
    let (result, trail) := (next (answers q)).run answers
    (result, ⟨q, answers q⟩ :: trail)

/-- What a run asks it asks after the exchanges before. -/
theorem asks_run {answers : ∀ q, Except ε (A q)} {m : Dialogue Q A ε α}
    {before after : List (Exchange Q A ε)} {x : Exchange Q A ε}
    (ran : (m.run answers).2 = before ++ x :: after) : m.Asks before x.question := by
  induction m generalizing before with
  | done result => simp [run] at ran
  | ask q next ih =>
    cases before with
    | nil =>
      obtain rfl := (List.cons.inj ran).1
      exact .now
    | cons y before =>
      obtain ⟨first, rest⟩ := List.cons.inj ran
      rw [← first]
      exact .later _ (ih _ rest)

theorem asks_of_run {answers : ∀ q, Except ε (A q)} {m : Dialogue Q A ε α} {i : Nat} {q : Q}
    (at_ : ((m.run answers).2.map Exchange.question)[i]? = some q) : m.Asks ((m.run answers).2.take i) q := by
  rw [List.getElem?_map, Option.map_eq_some_iff] at at_
  obtain ⟨x, held, rfl⟩ := at_
  obtain ⟨inside, rfl⟩ := List.getElem?_eq_some_iff.mp held
  have split : (m.run answers).2 = (m.run answers).2.take i ++
    (m.run answers).2[i] :: (m.run answers).2.drop (i + 1) := by
    rw [← List.drop_eq_getElem_cons inside, List.take_append_drop]
  exact asks_run split

/-- Every question is asked only where the exchanges before it meet `G`, and every end meets `P`. -/
def Keeps (G : List (Exchange Q A ε) → Q → Prop) (P : List (Exchange Q A ε) → Except ε α → Prop) :
    List (Exchange Q A ε) → Dialogue Q A ε α → Prop
  | past, done result => P past result
  | past, ask q next => G past q ∧ ∀ x, Keeps G P (past ++ [⟨q, x⟩]) (next x)

section Keeps
variable {G G' : List (Exchange Q A ε) → Q → Prop}
    {P P' : List (Exchange Q A ε) → Except ε α → Prop} {past trail : List (Exchange Q A ε)}
  {m : Dialogue Q A ε α}

theorem Keeps.asks {q : Q} (keeps : Keeps G P past m) (asks : m.Asks trail q) : G (past ++ trail) q := by
  induction asks generalizing past with
  | now =>
    rw [List.append_nil]
    exact keeps.1
  | @later q q' next trail x _ ih =>
    have asked := ih (keeps.2 x)
    rwa [List.append_assoc, List.singleton_append] at asked

theorem keeps_pure {a : α} (meets : P past (.ok a)) : Keeps G P past (pure a) := meets

theorem keeps_throw {e : ε} (meets : P past (.error e)) : Keeps G P past (throw e) := meets

theorem keeps_call {q : Q} {P : List (Exchange Q A ε) → Except ε (A q) → Prop} (allowed : G past q)
    (meets : ∀ x, P (past ++ [⟨q, x⟩]) x) : Keeps G P past (call q) :=
  ⟨allowed, meets⟩

/-- Ends that meet more, and questions asked where more holds. -/
theorem Keeps.mono (keeps : Keeps G P past m) (guard : ∀ added q, G (past ++ added) q → G' (past ++ added) q)
    (meets : ∀ added r, P (past ++ added) r → P' (past ++ added) r) : Keeps G' P' past m := by
  induction m generalizing past with
  | done result =>
    have held := meets [] result
    rw [List.append_nil] at held
    exact held keeps
  | ask q next ih =>
    refine ⟨?_, fun x => ih x (keeps.2 x) (fun added q' => ?_) fun added r => ?_⟩
    · have held := guard [] q
      rw [List.append_nil] at held
      exact held keeps.1
    · rw [List.append_assoc]
      exact guard _ q'
    · rw [List.append_assoc]
      exact meets _ r

/-- What comes first may have asked more. -/
theorem Keeps.chain {R : List (Exchange Q A ε) → Except ε β → Prop} {f : α → Dialogue Q A ε β}
    (first : Keeps G P past m)
    (rest : ∀ added a, P (past ++ added) (.ok a) → Keeps G R (past ++ added) (f a))
    (threw : ∀ added e, P (past ++ added) (.error e) → R (past ++ added) (.error e)) :
    Keeps G R past (m >>= f) := by
  induction m generalizing past with
  | done result =>
    cases result with
    | ok a =>
      have next := rest [] a
      rw [List.append_nil] at next
      exact next first
    | error e =>
      have ends := threw [] e
      rw [List.append_nil] at ends
      exact ends first
  | ask q next ih =>
    refine ⟨first.1, fun x => ih x (first.2 x) (fun added a => ?_) fun added e => ?_⟩
    · rw [List.append_assoc]
      exact rest _ a
    · rw [List.append_assoc]
      exact threw _ e

/-- A handled error goes on from where it was thrown. -/
theorem Keeps.catching {handler : ε → Dialogue Q A ε α} (first : Keeps G P past m)
    (ended : ∀ added a, P (past ++ added) (.ok a) → P' (past ++ added) (.ok a))
    (rest : ∀ added e, P (past ++ added) (.error e) → Keeps G P' (past ++ added) (handler e)) :
    Keeps G P' past (tryCatch m handler) := by
  induction m generalizing past with
  | done result =>
    cases result with
    | ok a =>
      have ends := ended [] a
      rw [List.append_nil] at ends
      exact ends first
    | error e =>
      have next := rest [] e
      rw [List.append_nil] at next
      exact next first
  | ask q next ih =>
    refine ⟨first.1, fun x => ih x (first.2 x) (fun added a => ?_) fun added e => ?_⟩
    · rw [List.append_assoc]
      exact ended _ a
    · rw [List.append_assoc]
      exact rest _ e

end Keeps

/-- It asks only what it may, and what it returns meets `R`. -/
def Only (may : Q → Prop) (R : α → Prop) : Dialogue Q A ε α → Prop
  | done result => ∀ a, result = .ok a → R a
  | ask q next => may q ∧ ∀ x, Only may R (next x)

section Only
variable {may may' : Q → Prop} {R R' : α → Prop} {S : β → Prop} {m : Dialogue Q A ε α}
    {f : α → Dialogue Q A ε β}

theorem only_pure {a : α} (meets : R a) : Only may R (pure a : Dialogue Q A ε α) :=
  fun _ same => Except.ok.inj same ▸ meets

theorem only_throw {e : ε} : Only may R (throw e : Dialogue Q A ε α) := fun _ same => nomatch same

theorem only_call {q : Q} (allowed : may q) : Only may (fun _ => True) (call q : Dialogue Q A ε (A q)) :=
  ⟨allowed, fun _ _ _ => trivial⟩

theorem Only.mono (only : Only may R m) (allowed : ∀ q, may q → may' q) (weaken : ∀ a, R a → R' a) :
    Only may' R' m := by
  induction m with
  | done result => exact fun a same => weaken a (only a same)
  | ask q next ih => exact ⟨allowed q only.1, fun x => ih x (only.2 x)⟩

theorem Only.bind (first : Only may R m) (rest : ∀ a, R a → Only may S (f a)) : Only may S (m >>= f) := by
  induction m with
  | done result =>
    cases result with
    | ok a => exact rest a (first a rfl)
    | error e => exact only_throw
  | ask q next ih => exact ⟨first.1, fun x => ih x (first.2 x)⟩

theorem Only.then (first : Only may R m) (rest : ∀ a, Only may S (f a)) : Only may S (m >>= f) :=
  first.bind fun a _ => rest a

theorem Only.tryCatch {handler : ε → Dialogue Q A ε α} (first : Only may R m)
    (rest : ∀ e, Only may R (handler e)) :
    Only may R (tryCatch m handler) := by
  induction m with
  | done result =>
    cases result with
    | ok a => exact first
    | error e => exact rest e
  | ask q next ih => exact ⟨first.1, fun x => ih x (first.2 x)⟩

end Only

end Dialogue
