import CollectorService.Program
import CollectorService.SQLiteManager

/-!
# Commands on the database

A command is a program whose atomic steps are the calls of `SQLiteManager`: each call runs under the
mutex of the connection, and other threads may run between two calls. No call fails for reasons of
its own here, so a call is its outcome on a healthy connection.
-/

namespace CollectorService

/-- A program of manager calls that returns a value or throws an exception with a message. -/
abbrev Command (α : Type) := Program Database (Except Str α)

namespace Command

variable {α β : Type}

protected def pure (a : α) : Command α := .ret (.ok a)

/-- How an exception passes the rest of a function. -/
def andThen (f : α → Command β) : Except Str α → Command β
  | .ok a => f a
  | .error e => .ret (.error e)

protected def bind (p : Command α) (f : α → Command β) : Command β := Program.bind p (andThen f)

instance : Monad Command where
  pure := Command.pure
  bind := Command.bind

/-- `throw std::runtime_error(message)`. -/
def throw (message : Str) : Command α := .ret (.error message)

/-- A computation without database access. -/
def lift (r : Except Str α) : Command α := .ret r

/-- A call of the manager. -/
def call (m : Sql α) : Command α := Program.atomic m.exec

/-- `try { ... } catch (const std::exception& ex) { ... }`; the handler reads `ex.what()`, a C string. -/
def tryCatch (p : Command α) (handler : Str → α) : Program Database α :=
  Program.bind p fun
    | .ok a => .ret a
    | .error e => .ret (handler (cString e))

/-- The call of a function that catches every exception itself. -/
def noThrow (p : Program Database α) : Command α := Program.bind p fun a => .ret (.ok a)

/-! ## Running a command alone -/

section Run
variable {p : Command α} {f : α → Command β} {t t' : Database} {a : α} {e : Str}

@[simp] theorem run_pure (a : α) (t : Database) : (pure a : Command α).run t = (.ok a, t) := rfl

@[simp] theorem run_lift (r : Except Str α) (t : Database) : (lift r).run t = (r, t) := rfl

@[simp] theorem run_call (m : Sql α) (t : Database) : (call m).run t = m.exec t := rfl

theorem run_bind (p : Command α) (f : α → Command β) (t : Database) :
    (p >>= f).run t = match p.run t with
      | (.ok a, t') => (f a).run t'
      | (.error e, t') => (.error e, t') := by
  rw [show (p >>= f) = Program.bind p (andThen f) from rfl, Program.run_bind]
  cases p.run t with
  | mk r t' => cases r <;> rfl

theorem run_bind_ok (h : p.run t = (.ok a, t')) : (p >>= f).run t = (f a).run t' := by
  rw [run_bind, h]

theorem run_bind_error (h : p.run t = (.error e, t')) : (p >>= f).run t = (.error e, t') := by
  rw [run_bind, h]

theorem run_bind_eq_ok {b : β} (h : (p >>= f).run t = (.ok b, t')) :
    ∃ a u, p.run t = (.ok a, u) ∧ (f a).run u = (.ok b, t') := by
  rcases hp : p.run t with ⟨e | a, u⟩
  · rw [run_bind_error hp] at h
    cases h
  · exact ⟨a, u, rfl, (run_bind_ok hp).symm.trans h⟩

theorem run_bind_assoc {γ : Type} (p : Command α) (f : α → Command β) (g : β → Command γ)
    (t : Database) : ((p >>= f) >>= g).run t = (p >>= fun a => f a >>= g).run t := by
  rw [run_bind, run_bind, run_bind]
  rcases p.run t with ⟨e | a, t'⟩
  · rfl
  · exact (run_bind (f a) g t').symm

theorem run_tryCatch (p : Command α) (handler : Str → α) (t : Database) :
    (p.tryCatch handler).run t = match p.run t with
      | (.ok a, t') => (a, t')
      | (.error e, t') => (handler (cString e), t') := by
  rw [tryCatch, Program.run_bind]
  cases p.run t with
  | mk r t' => cases r <;> rfl

@[simp] theorem run_noThrow (p : Program Database α) (t : Database) :
    (noThrow p).run t = (.ok (p.run t).1, (p.run t).2) := by
  rw [noThrow, Program.run_bind]
  rfl

end Run

/-! ## Invariants of commands -/

section Keeps
variable {I : Database → Prop} {p : Command α} {f : α → Command β}

theorem keeps_bind (hp : p.Keeps I) (hf : ∀ a, (f a).Keeps I) : (p >>= f).Keeps I :=
  Program.Keeps.bind hp fun
    | .ok a => hf a
    | .error _ => .ret _

theorem keeps_tryCatch {handler : Str → α} (hp : p.Keeps I) : (p.tryCatch handler).Keeps I :=
  Program.Keeps.bind hp fun
    | .ok _ => .ret _
    | .error _ => .ret _

theorem keeps_noThrow {p : Program Database α} (hp : p.Keeps I) : (noThrow p).Keeps I :=
  Program.Keeps.bind hp fun _ => .ret _

theorem keeps_throw (e : Str) : (Command.throw e : Command α).Keeps I := .ret _

theorem keeps_pure (a : α) : (pure a : Command α).Keeps I := .ret _

theorem keeps_lift (r : Except Str α) : (lift r).Keeps I := .ret _

/-- What follows a computation without database access depends on its value. -/
theorem keeps_lift_bind {r : Except Str α} (hf : ∀ a, r = .ok a → (f a).Keeps I) :
    (lift r >>= f).Keeps I := by
  cases r with
  | error e => exact .ret _
  | ok a => exact hf a rfl

theorem keeps_call {m : Sql α} (h : ∀ t, I t → I (m.exec t).2) : (call m).Keeps I := .atomic h

/-- A query keeps everything. -/
theorem keeps_query {m : Sql α} (h : ∀ t, (m.exec t).2 = t) : (call m).Keeps I :=
  .atomic fun t ht => by rwa [h t]

end Keeps

end Command

end CollectorService
