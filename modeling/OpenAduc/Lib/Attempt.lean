import Mathlib.Logic.Basic

abbrev Attempt (ε σ α : Type) := ExceptT ε (StateM σ) α

namespace Attempt
variable {ε σ α β : Type}

/-- What comes of it from the world `s`, and the world it leaves. -/
def exec (m : Attempt ε σ α) (s : σ) : Except ε α × σ := m.run s

/-- A call to the outside: it throws, having done nothing, or does what it does. -/
def call (fault : Option ε) (act : Attempt ε σ α) : Attempt ε σ α :=
  match fault with
  | some e => throw e
  | none => act

def read (f : σ → α) : Attempt ε σ α := do
  return f (← get)

/-- Run to an answer, an error giving one too. -/
def settle (onError : ε → α) (m : Attempt ε σ α) (s : σ) : α × σ :=
  match exec m s with
  | (.ok a, t) => (a, t)
  | (.error e, t) => (onError e, t)

@[simp] theorem exec_pure (a : α) (s : σ) : exec (pure a : Attempt ε σ α) s = (.ok a, s) := rfl

@[simp] theorem exec_throw (e : ε) (s : σ) : exec (throw e : Attempt ε σ α) s = (.error e, s) := rfl

@[simp] theorem exec_read (f : σ → α) (s : σ) : exec (read f : Attempt ε σ α) s = (.ok (f s), s) := rfl

@[simp] theorem exec_get (s : σ) : exec (get : Attempt ε σ σ) s = (.ok s, s) := rfl

@[simp] theorem exec_set (s t : σ) : exec (set t : Attempt ε σ PUnit) s = (.ok ⟨⟩, t) := rfl

theorem exec_bind (m : Attempt ε σ α) (f : α → Attempt ε σ β) (s : σ) :
    exec (m >>= f) s = match exec m s with
      | (.ok a, t) => exec (f a) t
      | (.error e, t) => (.error e, t) := by
  change exec (ExceptT.bind m f) s = _
  unfold exec ExceptT.bind ExceptT.bindCont
  simp only [ExceptT.run, ExceptT.mk, bind, StateT.bind]
  cases m s with
  | mk answer t => cases answer <;> rfl

theorem exec_tryCatch (m : Attempt ε σ α) (handler : ε → Attempt ε σ α) (s : σ) :
    exec (tryCatch m handler) s = match exec m s with
      | (.ok a, t) => (.ok a, t)
      | (.error e, t) => exec (handler e) t := by
  change exec (ExceptT.tryCatch m handler) s = _
  unfold exec ExceptT.tryCatch
  simp only [ExceptT.run, ExceptT.mk, bind, StateT.bind]
  cases m s with
  | mk answer t => cases answer <;> rfl

@[simp] theorem call_some (e : ε) (act : Attempt ε σ α) : call (some e) act = throw e := rfl

@[simp] theorem call_none (act : Attempt ε σ α) : call none act = act := rfl

theorem settle_bind (onError : ε → β) (m : Attempt ε σ α) (f : α → Attempt ε σ β) (s : σ) :
    settle onError (m >>= f) s = match exec m s with
      | (.ok a, t) => settle onError (f a) t
      | (.error e, t) => (onError e, t) := by
  unfold settle
  rw [exec_bind]
  cases exec m s with
  | mk answer t => cases answer <;> rfl

@[simp] theorem settle_pure (onError : ε → α) (a : α) (s : σ) : settle onError (pure a) s = (a, s) := rfl

/-- However it ends, it only moves the world as `R` says. -/
def Within (R : σ → σ → Prop) (m : Attempt ε σ α) : Prop := ∀ s, R s (exec m s).2

/-- It leaves the world as it was. -/
abbrev Reads (m : Attempt ε σ α) : Prop := Within (fun s t => t = s) m

section Within
variable {R : σ → σ → Prop}

theorem within_pure (refl : ∀ s, R s s) (a : α) : Within R (pure a : Attempt ε σ α) := fun s => refl s

theorem within_throw (refl : ∀ s, R s s) (e : ε) : Within R (throw e : Attempt ε σ α) := fun s => refl s

theorem within_bind (trans : ∀ {s t u}, R s t → R t u → R s u) {m : Attempt ε σ α} {f : α → Attempt ε σ β}
    (first : Within R m) (rest : ∀ a, Within R (f a)) : Within R (m >>= f) := by
  intro s
  have moved := first s
  rw [exec_bind]
  cases ran : exec m s with
  | mk answer t =>
    rw [ran] at moved
    cases answer with
    | error e => exact moved
    | ok a => exact trans moved (rest a t)

theorem within_call (refl : ∀ s, R s s) {fault : Option ε} {act : Attempt ε σ α} (inner : Within R act) :
    Within R (call fault act) := by
  cases fault with
  | none => exact inner
  | some e => exact within_throw refl e

end Within

theorem reads_bind {m : Attempt ε σ α} {f : α → Attempt ε σ β} (first : Reads m) (rest : ∀ a, Reads (f a)) :
    Reads (m >>= f) :=
  within_bind (fun old new => new.trans old) first rest

theorem reads_pure (a : α) : Reads (pure a : Attempt ε σ α) :=
  within_pure (R := fun s t => t = s) (fun _ => rfl) a

theorem reads_read (f : σ → α) : Reads (read f : Attempt ε σ α) := fun _ => rfl

theorem reads_call {fault : Option ε} {act : Attempt ε σ α} (inner : Reads act) : Reads (call fault act) :=
  within_call (R := fun s t => t = s) (fun _ => rfl) inner

/-- Whatever it comes to meets `P`. -/
def Yields (P : α → Prop) (m : Attempt ε σ α) : Prop := ∀ s a, (exec m s).1 = .ok a → P a

section Yields
variable {P : α → Prop}

theorem yields_pure {a : α} (meets : P a) : Yields P (pure a : Attempt ε σ α) := by
  intro s b same
  cases same
  exact meets

theorem yields_bind {P : β → Prop} {m : Attempt ε σ α} {f : α → Attempt ε σ β} (rest : ∀ a, Yields P (f a)) :
    Yields P (m >>= f) := by
  intro s b same
  rw [exec_bind] at same
  split at same
  next a t _ => exact rest a t b same
  next => cases same

/-- What the first comes to is known where the rest runs. -/
theorem yields_chain {P : β → Prop} {Q : α → Prop} {m : Attempt ε σ α} {f : α → Attempt ε σ β}
    (first : Yields Q m)
    (rest : ∀ a, Q a → Yields P (f a)) : Yields P (m >>= f) := by
  intro s b same
  rw [exec_bind] at same
  split at same
  next a t ran => exact rest a (first s a (congrArg Prod.fst ran)) t b same
  next => cases same

theorem yields_call {fault : Option ε} {act : Attempt ε σ α} (inner : Yields P act) :
    Yields P (call fault act) := by
  cases fault with
  | none => exact inner
  | some e => exact fun s a thrown => nomatch thrown

end Yields

/-- It comes to an answer, whatever the world. -/
def Answers (m : Attempt ε σ α) : Prop := ∀ s, ∃ a t, exec m s = (.ok a, t)

theorem answers_pure (a : α) : Answers (pure a : Attempt ε σ α) := fun s => ⟨a, s, rfl⟩

theorem answers_bind {m : Attempt ε σ α} {f : α → Attempt ε σ β} (first : Answers m)
    (rest : ∀ a, Answers (f a)) :
    Answers (m >>= f) := by
  intro s
  obtain ⟨a, t, ran⟩ := first s
  obtain ⟨b, u, ran'⟩ := rest a t
  exact ⟨b, u, by rw [exec_bind, ran]; exact ran'⟩

theorem answers_call {fault : Option ε} {act : Attempt ε σ α} (none : fault = none) (inner : Answers act) :
    Answers (call fault act) := by
  subst none
  exact inner

end Attempt
