import ShaderChain.Host
import ShaderChain.Proofs.Path

/-!
# Computations on a host with a state

What a computation gives from a state is found by running its parts one after
the other (`run_bind_of`). What is relied on when files are written is stated as
laws of the host: distinct names in a directory are distinct files, and reading
gives what was written last (`Host.KeepsFiles`); the file at a path keeps its
content until it is written again, also while directories are made
(`Host.KeepsContent`).
-/

set_option autoImplicit false

namespace ShaderChain

/-- What follows a computation runs from the state in which the computation ended. -/
theorem run_bind_of {σ α β : Type} {first : StateM σ α} {second : α → StateM σ β} {s t : σ} {a : α}
    (ran : first.run s = (a, t)) : (first >>= second).run s = (second a).run t := by
  rw [StateT.run_bind, ran]
  rfl

/-- The same of a computation that is lifted to one that may fail. -/
theorem run_lift_bind_of {σ ε α β : Type} {first : StateM σ α}
    {second : α → ExceptT ε (StateM σ) β} {s t : σ} {a : α} (ran : first.run s = (a, t)) :
    ((liftM first : ExceptT ε (StateM σ) α) >>= second).run.run s = (second a).run.run t := by
  have lifted : ((liftM first : ExceptT ε (StateM σ) α) >>= second).run =
      first >>= fun a => (second a).run := ExceptT.run_bind_lift first second
  rw [lifted, run_bind_of ran]

/-- What follows a computation that succeeded runs on its value. -/
theorem run_bind_of_ok {σ ε α β : Type} {first : ExceptT ε (StateM σ) α}
    {second : α → ExceptT ε (StateM σ) β} {s t : σ} {a : α}
    (ran : first.run.run s = (.ok a, t)) :
    (first >>= second).run.run s = (second a).run.run t := by
  rw [ExceptT.run_bind, run_bind_of ran]

/-- A computation that succeeds has parts that succeed. -/
theorem exists_of_run_bind_ok {σ ε α β : Type} {first : ExceptT ε (StateM σ) α}
    {second : α → ExceptT ε (StateM σ) β} {s s' : σ} {b : β}
    (ran : (first >>= second).run.run s = (.ok b, s')) :
    ∃ a t, first.run.run s = (.ok a, t) ∧ (second a).run.run t = (.ok b, s') := by
  cases result : first.run.run s with
  | mk value t =>
    rw [ExceptT.run_bind, run_bind_of result] at ran
    cases value with
    | error error => cases ran
    | ok a => exact ⟨a, t, rfl, ran⟩

namespace Host

variable {σ : Type} {host : Host (StateM σ)} {s : σ} {path : Path}

/-- The text in a file with some content. -/
def textOf : Except IoError Bytes → Except IoError String
  | .error cause => .error cause
  | .ok bytes =>
    match Text.decode? bytes with
    | some text => .ok text
    | none => .error .invalidText

theorem textOf_eq_ok_iff {content : Except IoError Bytes} {text : String} :
    textOf content = .ok text ↔ ∃ bytes, content = .ok bytes ∧ Text.decode? bytes = some text := by
  cases content with
  | error cause => exact ⟨nofun, nofun⟩
  | ok bytes =>
    rw [textOf]
    cases decoded : Text.decode? bytes with
    | none => simp [decoded]
    | some other => simp [decoded]

theorem run_readText {content : Except IoError Bytes} {t : σ}
    (read : (host.read path).run s = (content, t)) :
    (host.readText path).run s = (textOf content, t) := by
  rw [readText, run_bind_of read]
  cases content with
  | error cause => rfl
  | ok bytes =>
    rw [textOf]
    dsimp only
    cases Text.decode? bytes with
    | none => rfl
    | some text => rfl

/-- Whether distinct names in a directory are distinct files, and reading a file gives what was
written to it last. This is asked for in the states that are proper, and operations that succeed
lead from proper states to proper states. -/
structure KeepsFiles (host : Host (StateM σ)) (dir : Path) (proper : σ → Prop) : Prop where
  makes : ∀ s s', proper s → (host.makeDirectories dir).run s = (.ok (), s') → proper s'
  writes : ∀ s s' name content, proper s → Path.IsName name →
    (host.write (dir.child name) content).run s = (.ok (), s') → proper s'
  written : ∀ s s' name content, proper s → Path.IsName name →
    (host.write (dir.child name) content).run s = (.ok (), s') →
      ((host.read (dir.child name)).run s').1 = .ok content
  others : ∀ s s' name content other, proper s → Path.IsName name → Path.IsName other →
    other ≠ name → (host.write (dir.child name) content).run s = (.ok (), s') →
      ((host.read (dir.child other)).run s').1 = ((host.read (dir.child other)).run s).1

/-- Whether the file at a path keeps its content while directories are made, and holds what was
written to it; a device, which gives back nothing of what it was given, is no such file. This is
asked for in the states that are proper, and making directories leads from proper states to proper
states, also when it fails. -/
structure KeepsContent (host : Host (StateM σ)) (path : Path) (proper : σ → Prop) : Prop where
  makes : ∀ s s' dir made, proper s → (host.makeDirectories dir).run s = (made, s') → proper s'
  kept : ∀ s s' dir made content, proper s → (host.makeDirectories dir).run s = (made, s') →
    ((host.read path).run s).1 = .ok content → ((host.read path).run s').1 = .ok content
  written : ∀ s s' content, proper s → (host.write path content).run s = (.ok (), s') →
    ((host.read path).run s').1 = .ok content

end Host

end ShaderChain
