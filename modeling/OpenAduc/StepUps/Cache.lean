import OpenAduc.Lib.Assoc
import OpenAduc.Lib.Utf8
import OpenAduc.Naming.Text

namespace OpenAduc.StepUps
open Naming (Text)

/-- A `Buffer` of the process; and which elevated session's password it was made for. -/
structure Buffer where
  bytes : List UInt8
  of : Nat
  deriving DecidableEq, Repr

/-- `fill(0)`. -/
def Buffer.filled (b : Buffer) : Buffer := { b with bytes := List.replicate b.bytes.length 0 }

/-- A cached password: the buffer it is in, and its end. -/
structure Entry where
  password : Nat
  expiresAt : Int
  deriving DecidableEq, Repr

/-- `CredentialCacheService`: its map, and every buffer it has made, which stays in memory. -/
structure Cache where
  entries : List (Nat × Entry)
  buffers : List Buffer
  deriving DecidableEq, Repr

namespace Cache

def empty : Cache := ⟨[], []⟩

def fill (c : Cache) (password : Nat) : Cache := { c with buffers := c.buffers.modify password Buffer.filled }

def evict (c : Cache) (id : Nat) (entry : Entry) : Cache :=
  { c.fill entry.password with entries := Assoc.erase c.entries id }

def set (c : Cache) (id : Nat) (password : Text) (expiresAt : Int) : Cache :=
  let wiped := match Assoc.get c.entries id with
    | none => c
    | some existing => c.fill existing.password
  { entries := Assoc.set wiped.entries id { password := wiped.buffers.length, expiresAt }
    buffers := wiped.buffers ++ [{ bytes := Utf8.encode password, of := id }] }

/-- The password, and the cache without it where it has ended. -/
def get (c : Cache) (id : Nat) (now : Int) : Option Text × Cache :=
  match Assoc.get c.entries id with
  | none => (none, c)
  | some entry =>
    if entry.expiresAt ≤ now then (none, c.evict id entry)
    else ((c.buffers[entry.password]?).map fun b => Utf8.decode b.bytes, c)

def extend (c : Cache) (id : Nat) (expiresAt : Int) : Cache :=
  match Assoc.get c.entries id with
  | none => c
  | some entry => { c with entries := Assoc.set c.entries id { entry with expiresAt } }

def delete (c : Cache) (id : Nat) : Cache :=
  match Assoc.get c.entries id with
  | none => c
  | some entry => c.evict id entry

def deleteMany (c : Cache) (ids : List Nat) : Cache := ids.foldl delete c

/-- The map is gone through while it loses some of its entries. -/
def evictEach (test : Entry → Bool) (c : Cache) : Cache :=
  c.entries.foldl (fun c x => if test x.2 then c.evict x.1 x.2 else c) c

def sweep (c : Cache) (now : Int) : Cache := c.evictEach (·.expiresAt ≤ now)

/-- Everything still held is wiped as the process ends. -/
def stop (c : Cache) : Cache := c.evictEach fun _ => true

end Cache

/-- All zeros. -/
def Buffer.Wiped (b : Buffer) : Prop := ∀ x ∈ b.bytes, x = 0

/-- Each cached password is in a buffer of its own that meets the condition, and every other buffer
is wiped. -/
structure Cache.Tidy (meets : Nat → Int → List UInt8 → Prop) (c : Cache) : Prop where
  keyed : Table.Keyed Prod.fst c.entries
  own : ∀ id e, Assoc.get c.entries id = some e → ∃ b, c.buffers[e.password]? = some b ∧ b.of = id ∧
    meets id e.expiresAt b.bytes
  wiped : ∀ i b, c.buffers[i]? = some b → b.Wiped ∨ ∃ e, Assoc.get c.entries b.of = some e ∧ e.password = i

section
variable {meets meets' : Nat → Int → List UInt8 → Prop} {c : Cache} {id i : Nat} {e : Entry}
    {password : Text} {now expiresAt : Int}

theorem filled_wiped (b : Buffer) : b.filled.Wiped := fun _ member => List.eq_of_mem_replicate member

theorem fill_buffers {r : Nat} : (c.fill r).buffers[i]? = (c.buffers[i]?).map fun b =>
    if r = i then b.filled else b :=
  List.getElem?_modify ..

theorem tidy_empty : Cache.empty.Tidy meets :=
  ⟨List.nodup_nil, fun _ _ got => by simp [Cache.empty] at got, fun _ _ has => by simp [Cache.empty] at has⟩

theorem Cache.Tidy.mono (tidy : c.Tidy meets)
    (weaken : ∀ id e, Assoc.get c.entries id = some e → ∀ bytes, meets id e.expiresAt bytes →
      meets' id e.expiresAt bytes) :
    c.Tidy meets' := by
  refine ⟨tidy.keyed, fun id e got => ?_, tidy.wiped⟩
  obtain ⟨b, has, its, met⟩ := tidy.own id e got
  exact ⟨b, has, its, weaken id e got _ met⟩

/-- Two sessions' passwords are in two buffers. -/
theorem Cache.Tidy.apart (tidy : c.Tidy meets) {id' : Nat} {e' : Entry}
    (got : Assoc.get c.entries id = some e)
    (got' : Assoc.get c.entries id' = some e') (other : id' ≠ id) : e.password ≠ e'.password := by
  intro same
  obtain ⟨b, has, its, _⟩ := tidy.own id e got
  obtain ⟨b', has', its', _⟩ := tidy.own id' e' got'
  rw [same, has'] at has
  cases has
  exact other (its'.symm.trans its)

/-- An entry taken out has its buffer wiped. -/
theorem tidy_evict (tidy : c.Tidy meets) (got : Assoc.get c.entries id = some e) :
    (c.evict id e).Tidy meets where
  keyed := Assoc.keyed_erase tidy.keyed
  own id' e' got' := by
    change Assoc.get (Assoc.erase c.entries id) id' = some e' at got'
    rw [Assoc.get_erase] at got'
    split at got'
    next => cases got'
    next other =>
      obtain ⟨b, has, its, met⟩ := tidy.own id' e' got'
      refine ⟨b, ?_, its, met⟩
      change (c.fill e.password).buffers[e'.password]? = some b
      rw [fill_buffers, has, Option.map_some, if_neg (tidy.apart got got' other)]
  wiped i b has := by
    change (c.fill e.password).buffers[i]? = some b at has
    rw [fill_buffers] at has
    obtain ⟨b', has', rfl⟩ := Option.map_eq_some_iff.mp has
    by_cases here : e.password = i
    · rw [if_pos here]
      exact .inl (filled_wiped b')
    · rw [if_neg here]
      rcases tidy.wiped i b' has' with zeros | ⟨e', got', at_⟩
      · exact .inl zeros
      · refine .inr ⟨e', ?_, at_⟩
        change Assoc.get (Assoc.erase c.entries id) b'.of = some e'
        rw [Assoc.get_erase, if_neg]
        · exact got'
        · intro same
          rw [same, got] at got'
          cases got'
          exact here at_

/-- With a session's password wiped, and its entry about to be set to another buffer. -/
theorem tidy_append (keyed : Table.Keyed Prod.fst c.entries)
    (own : ∀ id' e, Assoc.get c.entries id' = some e → id' ≠ id →
      ∃ b, c.buffers[e.password]? = some b ∧ b.of = id' ∧ meets id' e.expiresAt b.bytes)
    (wiped : ∀ i b, c.buffers[i]? = some b → b.Wiped ∨ b.of ≠ id ∧ ∃ e, Assoc.get c.entries b.of =
      some e ∧ e.password = i)
    (met : meets id expiresAt (Utf8.encode password)) :
    Cache.Tidy meets {
      entries := Assoc.set c.entries id { password := c.buffers.length, expiresAt }
      buffers := c.buffers ++ [{ bytes := Utf8.encode password, of := id }] } where
  keyed := Assoc.keyed_set keyed
  own id' e got := by
    rw [Assoc.get_set] at got
    split at got
    next same =>
      cases got
      subst same
      exact ⟨_, List.getElem?_concat_length, rfl, met⟩
    next other =>
      obtain ⟨b, has, its, met'⟩ := own id' e got other
      have inside := (List.getElem?_eq_some_iff.mp has).1
      exact ⟨b, (List.getElem?_append_left inside).trans has, its, met'⟩
  wiped i b has := by
    rcases Nat.lt_or_ge i c.buffers.length with inside | beyond
    · change (c.buffers ++ [_])[i]? = some b at has
      rw [List.getElem?_append_left inside] at has
      rcases wiped i b has with zeros | ⟨other, e, got, at_⟩
      · exact .inl zeros
      · exact .inr ⟨e, by rw [Assoc.get_set, if_neg other]; exact got, at_⟩
    · change (c.buffers ++ [_])[i]? = some b at has
      rw [List.getElem?_append_right beyond] at has
      obtain ⟨last, is⟩ := List.getElem?_eq_some_iff.mp has
      have here : i - c.buffers.length = 0 := by
        simp only [List.length_singleton] at last
        omega
      simp only [here, List.getElem_singleton] at is
      subst is
      exact .inr ⟨_, by rw [Assoc.get_set, if_pos rfl], by dsimp only; omega⟩

/-- A password set wipes what it replaces. -/
theorem tidy_set (tidy : c.Tidy meets) (met : meets id expiresAt (Utf8.encode password)) :
    (c.set id password expiresAt).Tidy meets := by
  unfold Cache.set
  cases got : Assoc.get c.entries id with
  | none =>
    refine tidy_append tidy.keyed (fun id' e got' _ => tidy.own id' e got')
      (fun i b has => (tidy.wiped i b has).imp_right ?_) met
    rintro ⟨e, got', at_⟩
    refine ⟨fun same => ?_, e, got', at_⟩
    rw [same, got] at got'
    cases got'
  | some existing =>
    dsimp only
    refine tidy_append tidy.keyed (fun id' e got' other => ?_) (fun i b has => ?_) met
    · obtain ⟨b, has, its, met'⟩ := tidy.own id' e got'
      refine ⟨b, ?_, its, met'⟩
      rw [fill_buffers, has, Option.map_some, if_neg (tidy.apart got got' other)]
    · rw [fill_buffers] at has
      obtain ⟨b', has', rfl⟩ := Option.map_eq_some_iff.mp has
      by_cases here : existing.password = i
      · rw [if_pos here]
        exact .inl (filled_wiped b')
      · rw [if_neg here]
        refine (tidy.wiped i b' has').imp_right ?_
        rintro ⟨e, got', at_⟩
        refine ⟨fun same => ?_, e, got', at_⟩
        rw [same, got] at got'
        cases got'
        exact here at_

/-- A later end moves no password. -/
theorem tidy_extend (tidy : c.Tidy meets) (met : ∀ old bytes, meets id old bytes → meets id expiresAt bytes) :
    (c.extend id expiresAt).Tidy meets := by
  unfold Cache.extend
  split
  next => exact tidy
  next entry got =>
    refine ⟨Assoc.keyed_set tidy.keyed, fun id' e got' => ?_, fun i b has =>
      (tidy.wiped i b has).imp_right ?_⟩
    · rw [Assoc.get_set] at got'
      split at got'
      next same =>
        cases got'
        subst same
        obtain ⟨b, has, its, met'⟩ := tidy.own id' entry got
        exact ⟨b, has, its, met _ _ met'⟩
      next => exact tidy.own id' e got'
    · rintro ⟨e, got', at_⟩
      by_cases same : b.of = id
      · rw [same, got] at got'
        cases got'
        exact ⟨{ entry with expiresAt }, by rw [Assoc.get_set, if_pos same], at_⟩
      · exact ⟨e, by rw [Assoc.get_set, if_neg same]; exact got', at_⟩

theorem tidy_delete (tidy : c.Tidy meets) : (c.delete id).Tidy meets := by
  unfold Cache.delete
  split
  next => exact tidy
  next entry got => exact tidy_evict tidy got

theorem tidy_deleteMany (ids : List Nat) (tidy : c.Tidy meets) : (c.deleteMany ids).Tidy meets := by
  induction ids generalizing c with
  | nil => exact tidy
  | cons id ids ih => exact ih (tidy_delete tidy)

theorem tidy_get (tidy : c.Tidy meets) : (c.get id now).2.Tidy meets := by
  unfold Cache.get
  split
  next => exact tidy
  next entry got =>
    split
    next => exact tidy_evict tidy got
    next => exact tidy

/-- What is read is in a buffer that meets the condition, before its end. -/
theorem get_some (tidy : c.Tidy meets) (read : (c.get id now).1 = some password) :
    ∃ expiresAt bytes, meets id expiresAt bytes ∧ now < expiresAt ∧ password = Utf8.decode bytes := by
  unfold Cache.get at read
  split at read
  next => cases read
  next entry got =>
    split at read
    next => cases read
    next inTime =>
      obtain ⟨b, has, _, met⟩ := tidy.own id entry got
      dsimp only at read
      rw [has] at read
      cases read
      exact ⟨_, _, met, by omega, rfl⟩

/-- What is left of a session's entry when another's is evicted. -/
theorem get_evict {id' : Nat} : Assoc.get (c.evict id e).entries id' = if id' = id then none
    else Assoc.get c.entries id' :=
  Assoc.get_erase

theorem get_delete {id' : Nat} : Assoc.get (c.delete id).entries id' = if id' = id then none
    else Assoc.get c.entries id' := by
  unfold Cache.delete
  split
  next absent =>
    by_cases same : id' = id
    · rw [if_pos same, same, absent]
    · rw [if_neg same]
  next => exact get_evict

theorem get_deleteMany (ids : List Nat) {id' : Nat} :
    Assoc.get (c.deleteMany ids).entries id' = if id' ∈ ids then none else Assoc.get c.entries id' := by
  induction ids generalizing c with
  | nil => simp [Cache.deleteMany]
  | cons id ids ih =>
    have rest : c.deleteMany (id :: ids) = (c.delete id).deleteMany ids := rfl
    rw [rest, ih, get_delete]
    by_cases later : id' ∈ ids
    · simp [later]
    · by_cases same : id' = id <;> simp [later, same]

/-- Evicting the entries of a list that meet a test, one after another. -/
theorem tidy_evictions (test : Entry → Bool) (es : List (Nat × Entry)) (keyed : Table.Keyed Prod.fst es)
    (are : ∀ x ∈ es, Assoc.get c.entries x.1 = some x.2) (tidy : c.Tidy meets) :
    (es.foldl (fun c x => if test x.2 then c.evict x.1 x.2 else c) c).Tidy meets ∧
      ∀ id', Assoc.get (es.foldl (fun c x => if test x.2 then c.evict x.1 x.2 else c) c).entries id' =
        if es.any fun x => x.1 = id' ∧ test x.2 then none else Assoc.get c.entries id' := by
  induction es generalizing c with
  | nil => exact ⟨tidy, fun id' => rfl⟩
  | cons x es ih =>
    have parts := List.nodup_cons.mp keyed
    have mine := are x (List.mem_cons_self ..)
    rw [List.foldl_cons]
    by_cases goes : test x.2 = true
    · rw [if_pos goes]
      have still : ∀ y ∈ es, Assoc.get (c.evict x.1 x.2).entries y.1 = some y.2 := by
        intro y member
        have other : y.1 ≠ x.1 := fun same => parts.1 (same ▸ List.mem_map_of_mem member)
        rw [get_evict, if_neg other]
        exact are y (List.mem_cons_of_mem _ member)
      obtain ⟨kept, gets⟩ := ih parts.2 still (tidy_evict tidy mine)
      refine ⟨kept, fun id' => ?_⟩
      rw [gets, get_evict, List.any_cons]
      by_cases same : id' = x.1
      · have here : decide (x.1 = id' ∧ test x.2 = true) = true := decide_eq_true ⟨same.symm, goes⟩
        rw [here, Bool.true_or, if_pos rfl, if_pos same]
        split <;> rfl
      · have apart : decide (x.1 = id' ∧ test x.2 = true) = false :=
          decide_eq_false fun both => same both.1.symm
        rw [apart, Bool.false_or, if_neg same]
    · rw [if_neg goes]
      obtain ⟨kept, gets⟩ := ih parts.2 (fun y member => are y (List.mem_cons_of_mem _ member)) tidy
      refine ⟨kept, fun id' => ?_⟩
      have stays : decide (x.1 = id' ∧ test x.2 = true) = false := decide_eq_false fun both => goes both.2
      rw [gets, List.any_cons, stays, Bool.false_or]

/-- Going through the map leaves in it what does not meet the test. -/
theorem tidy_evictEach (test : Entry → Bool) (tidy : c.Tidy meets) :
    (c.evictEach test).Tidy meets ∧ ∀ id' e, Assoc.get (c.evictEach test).entries id' = some e →
      test e = false := by
  have are : ∀ x ∈ c.entries, Assoc.get c.entries x.1 = some x.2 := by
    intro x member
    unfold Assoc.get
    rw [tidy.keyed.find_eq member, Option.map_some]
  obtain ⟨kept, gets⟩ := tidy_evictions test c.entries tidy.keyed are tidy
  refine ⟨kept, fun id' e got => ?_⟩
  rw [Cache.evictEach, gets] at got
  split at got
  next => cases got
  next stays =>
    refine eq_false_of_ne_true fun goes => stays ?_
    exact List.any_eq_true.mpr ⟨(id', e), Assoc.mem_of_get got, by simpa using goes⟩

end
end OpenAduc.StepUps
