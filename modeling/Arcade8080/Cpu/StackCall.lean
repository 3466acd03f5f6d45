import Mathlib.Data.List.Induction
import Mathlib.Data.List.Infix
import Arcade8080.Cpu.Call

/-!
Pushes and pops as calls, the words that they leave on a stack, and which pop belongs
to which push. A push and a pop match if the calls between them are balanced.
-/

namespace Arcade8080

inductive StackCall where
  | push (value : Word)
  | pop
  deriving DecidableEq

namespace StackCall

def call : StackCall → Cpu.Call
  | .push value => .push value
  | .pop => .pop

def isPush : StackCall → Bool
  | .push _ => true
  | .pop => false

def pushes (calls : List StackCall) : Nat := calls.countP isPush

def pops (calls : List StackCall) : Nat := calls.count .pop

@[simp] theorem pushes_concat_push (calls : List StackCall) (value : Word) :
    pushes (calls ++ [.push value]) = pushes calls + 1 := by simp [pushes, isPush]

@[simp] theorem pushes_concat_pop (calls : List StackCall) :
    pushes (calls ++ [.pop]) = pushes calls := by simp [pushes, isPush]

@[simp] theorem pops_concat_push (calls : List StackCall) (value : Word) :
    pops (calls ++ [.push value]) = pops calls := by simp [pops]

@[simp] theorem pops_concat_pop (calls : List StackCall) :
    pops (calls ++ [.pop]) = pops calls + 1 := by simp [pops]

/-- What a call makes of the words on a stack. -/
def on : List Word → StackCall → List Word
  | held, .push value => value :: held
  | held, .pop => held.tail

/-- The words that some calls leave on an empty stack, last in first. -/
def held (calls : List StackCall) : List Word := calls.foldl on []

theorem held_concat (calls : List StackCall) (last : StackCall) :
    held (calls ++ [last]) = on (held calls) last := by
  simp only [held, List.foldl_append, List.foldl_cons, List.foldl_nil]

/-- Every push of the calls has its pop among them, and the other way around. -/
inductive Balanced : List StackCall → Prop
  | nil : Balanced []
  | enclose {inner rest : List StackCall} (value : Word) (inside : Balanced inner)
      (behind : Balanced rest) : Balanced (.push value :: inner ++ .pop :: rest)

theorem Balanced.append {first second : List StackCall} (h : Balanced first)
    (hsecond : Balanced second) : Balanced (first ++ second) := by
  induction h with
  | nil => exact hsecond
  | enclose value inside behind _ ih =>
    rw [List.append_assoc, List.cons_append]
    exact .enclose value inside ih

/-- Balanced calls leave a stack as they found it. -/
theorem Balanced.foldl_on {calls : List StackCall} (h : Balanced calls) (values : List Word) :
    calls.foldl on values = values := by
  induction h generalizing values with
  | nil => rfl
  | enclose value inside behind ihinside ihbehind =>
    have hinside := ihinside (value :: values)
    rw [List.foldl_append, List.foldl_cons, List.foldl_cons, on, hinside, on, List.tail_cons,
      ihbehind]

/-- A pop after these calls would match the push of `value`. -/
def Awaits (value : Word) (calls : List StackCall) : Prop :=
  ∃ before between, calls = before ++ .push value :: between ∧ Balanced between

/-- A word on top of the stack was pushed, and what lay below it then still does. -/
theorem exists_push_of_held {calls : List StackCall} {value : Word} {rest : List Word}
    (h : held calls = value :: rest) :
    ∃ before between, calls = before ++ .push value :: between ∧ Balanced between ∧
      held before = rest := by
  induction hlength : calls.length using Nat.strongRecOn generalizing calls value rest with
  | ind length ih =>
    subst hlength
    rcases List.eq_nil_or_concat calls with rfl | ⟨init, last, rfl⟩
    · cases h
    rw [List.concat_eq_append] at ih h ⊢
    rw [held_concat] at h
    cases last with
    | push last =>
      cases h
      exact ⟨init, [], rfl, .nil, rfl⟩
    | pop =>
      -- The word lay below another one, which this last pop has removed: go back to the
      -- push of that one, and from there to the push of the word itself.
      obtain ⟨gone, hinit⟩ : ∃ gone, held init = gone :: value :: rest := by
        cases hheld : held init with
        | nil =>
          rw [hheld] at h
          cases h
        | cons gone below =>
          rw [hheld] at h
          exact ⟨gone, congrArg (gone :: ·) h⟩
      obtain ⟨middle, inner, rfl, hinner, hmiddle⟩ := ih init.length (by simp) hinit rfl
      obtain ⟨before, between, rfl, hbetween, hbefore⟩ :=
        ih middle.length (by simp) hmiddle rfl
      refine ⟨before, between ++ (.push gone :: inner ++ [.pop]), by simp, ?_, hbefore⟩
      exact hbetween.append (.enclose gone hinner .nil)

theorem awaits_iff {value : Word} {calls : List StackCall} :
    Awaits value calls ↔ (held calls).head? = some value := by
  constructor
  · rintro ⟨before, between, rfl, hbetween⟩
    rw [held, List.foldl_append, List.foldl_cons, hbetween.foldl_on]
    rfl
  · intro h
    obtain ⟨rest, hheld⟩ := List.head?_eq_some_iff.mp h
    obtain ⟨before, between, hsplit, hbetween, _⟩ := exists_push_of_held hheld
    exact ⟨before, between, hsplit, hbetween⟩

/-- No prefix of the calls has more pops than pushes, and none leaves more than `depth`
words. -/
def Fits (depth : Nat) (calls : List StackCall) : Prop :=
  ∀ early, early <+: calls → pops early ≤ pushes early ∧ pushes early ≤ pops early + depth

instance (depth : Nat) (calls : List StackCall) : Decidable (Fits depth calls) :=
  decidable_of_iff
    (∀ early ∈ calls.inits, pops early ≤ pushes early ∧ pushes early ≤ pops early + depth)
    (by simp only [List.mem_inits, Fits])

namespace Fits

variable {depth : Nat} {calls early : List StackCall}

theorem of_isPrefix (h : Fits depth calls) (hearly : early <+: calls) : Fits depth early :=
  fun _ hfirst => h _ (hfirst.trans hearly)

theorem length_held (h : Fits depth calls) :
    (held calls).length + pops calls = pushes calls := by
  induction calls using List.reverseRecOn with
  | nil => rfl
  | append_singleton early last ih =>
    have hlength := ih (h.of_isPrefix (List.prefix_append early [last]))
    have hwhole := (h _ (List.prefix_refl _)).1
    rw [held_concat]
    cases last with
    | push value =>
      rw [on, List.length_cons, pops_concat_push, pushes_concat_push]
      omega
    | pop =>
      rw [pops_concat_pop, pushes_concat_pop] at hwhole ⊢
      rw [on, List.length_tail]
      omega

theorem length_lt_of_push {value : Word} (h : Fits depth (calls ++ [.push value])) :
    (held calls).length < depth := by
  have hlength := h.length_held
  have hwhole := (h _ (List.prefix_refl _)).2
  rw [held_concat, on, List.length_cons] at hlength
  omega

theorem held_ne_nil_of_pop (h : Fits depth (calls ++ [.pop])) : held calls ≠ [] := by
  have hlength := (h.of_isPrefix (List.prefix_append calls _)).length_held
  have hwhole := (h _ (List.prefix_refl _)).1
  rw [pops_concat_pop, pushes_concat_pop] at hwhole
  apply List.ne_nil_of_length_pos
  omega

end Fits

end StackCall

namespace Cpu

/-- The processor after pushes and pops, failed ones included. -/
def afterStack (cpu : Cpu) (calls : List StackCall) : Cpu :=
  cpu.afterAll (calls.map StackCall.call)

theorem afterStack_concat (cpu : Cpu) (calls : List StackCall) (last : StackCall) :
    cpu.afterStack (calls ++ [last]) = (cpu.afterStack calls).after last.call := by
  simp only [afterStack, afterAll, List.map_append, List.foldl_append, List.map_cons,
    List.map_nil, List.foldl_cons, List.foldl_nil]

end Cpu

end Arcade8080
