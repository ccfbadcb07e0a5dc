import ShaderChain.Workspace

/-!
# What a computation always gives

Tools, hosts and runs are written for any monad `m`. That every value of a
computation has a property, whatever its effects do, is said without looking
into `m`: the computation is the image of one that carries with each value the
proof of its property (`Always`). In a state monad this means that the value
has the property from every state (`always_state_iff`).

For a computation that may end in a failure of a tool, `Settles` gives one
property to its values and one to its failures. The rules of both predicates
follow the way computations are put together.
-/

set_option autoImplicit false

namespace ShaderChain

variable {m : Type → Type} {α β : Type}

/-! ## Values -/

/-- Every value that the computation gives has the property. -/
def Always [Functor m] (p : α → Prop) (x : m α) : Prop :=
  ∃ proven : m {a // p a}, Subtype.val <$> proven = x

namespace Always

variable [Monad m] [LawfulMonad m] {p q : α → Prop}

theorem pure {a : α} (holds : p a) : Always p (pure a : m α) :=
  ⟨Pure.pure ⟨a, holds⟩, map_pure _ _⟩

theorem map {r : β → Prop} {x : m α} (always : Always p x) (f : α → β)
    (step : ∀ a, p a → r (f a)) : Always r (f <$> x) := by
  obtain ⟨proven, rfl⟩ := always
  refine ⟨(fun a => ⟨f a.1, step a.1 a.2⟩) <$> proven, ?_⟩
  rw [← comp_map, ← comp_map]
  rfl

theorem mono {x : m α} (always : Always p x) (weaken : ∀ a, p a → q a) : Always q x := by
  have image := always.map id weaken
  rwa [id_map] at image

/-- Nothing is claimed of the values. -/
theorem trivial (x : m α) : Always (fun _ => True) x := by
  refine ⟨(fun a => ⟨a, True.intro⟩) <$> x, ?_⟩
  rw [← comp_map]
  exact id_map x

theorem bind {r : β → Prop} {x : m α} {f : α → m β} (first : Always p x)
    (next : ∀ a, p a → Always r (f a)) : Always r (x >>= f) := by
  obtain ⟨proven, rfl⟩ := first
  refine ⟨proven >>= fun a => (next a.1 a.2).choose, ?_⟩
  rw [map_bind, bind_map_left]
  congr
  funext a
  exact (next a.1 a.2).choose_spec

end Always

/-- In a state monad a computation always gives values with a property exactly when it does so
from every state. -/
theorem always_state_iff {σ : Type} {p : α → Prop} {x : StateM σ α} :
    Always p x ↔ ∀ s, p (x.run s).1 := by
  constructor
  · rintro ⟨proven, rfl⟩ s
    exact (proven.run s).1.2
  · intro everywhere
    exact ⟨fun s => (⟨(x.run s).1, everywhere s⟩, (x.run s).2), rfl⟩

/-! ## Values or failures -/

/-- A value has one property, a failure another. -/
def Settled (p : α → Prop) (q : ToolError → Prop) : Except ToolError α → Prop
  | .ok a => p a
  | .error error => q error

/-- Every value of the computation has one property, and every failure another. -/
def Settles [Monad m] (p : α → Prop) (q : ToolError → Prop) (x : ExceptT ToolError m α) : Prop :=
  Always (Settled p q) x.run

namespace Settles

variable [Monad m] [LawfulMonad m] {p : α → Prop} {q : ToolError → Prop}

theorem pure {a : α} (holds : p a) : Settles p q (pure a : ExceptT ToolError m α) :=
  Always.pure holds

theorem throw {error : ToolError} (holds : q error) :
    Settles p q (throw error : ExceptT ToolError m α) :=
  Always.pure holds

theorem bind {r : β → Prop} {x : ExceptT ToolError m α} {f : α → ExceptT ToolError m β}
    (first : Settles p q x) (next : ∀ a, p a → Settles r q (f a)) : Settles r q (x >>= f) := by
  refine Always.bind first fun result holds => ?_
  cases result with
  | ok a => exact next a holds
  | error error => exact Always.pure holds

/-- A computation that only the monad below knows has no failure of a tool. -/
theorem lift {x : m α} (always : Always p x) :
    Settles p q (liftM x : ExceptT ToolError m α) :=
  always.map Except.ok fun _ holds => holds

/-- A result that is already known is settled as it is. -/
theorem ofResult {x : Except ToolError α} (settled : Settled p q x) :
    Settles p q (liftM x : ExceptT ToolError m α) :=
  Always.pure settled

/-- What a computation ends in, taken as a value, does not fail. -/
theorem settled {q' : ToolError → Prop} {x : ExceptT ToolError m α} (settles : Settles p q x) :
    Settles (Settled p q) q' (settled x) :=
  Always.map settles Except.ok fun _ holds => holds

/-- Nothing is claimed of the values and failures. -/
theorem trivial (x : ExceptT ToolError m α) : Settles (fun _ => True) (fun _ => True) x := by
  refine (Always.trivial x.run).mono fun result _ => ?_
  cases result with
  | ok a => exact True.intro
  | error error => exact True.intro

/-- If nothing is claimed of the failures, what came before does not matter where what follows
settles for every value. -/
theorem after {β : Type} {r : β → Prop} {x : ExceptT ToolError m α}
    {f : α → ExceptT ToolError m β} (next : ∀ a, Settles r (fun _ => True) (f a)) :
    Settles r (fun _ => True) (x >>= f) :=
  (trivial x).bind fun a _ => next a

end Settles

end ShaderChain
