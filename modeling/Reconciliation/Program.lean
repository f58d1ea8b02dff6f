/-
# Programs that talk to their surroundings

A `Program` either has finished with a value or makes a request and goes on with
the reply.  What a request does is not part of it: the same program can be run
against a store, against a store some of whose calls fail, or one request at a
time in turn with another program.
-/

namespace Reconciliation

/-- A computation that makes requests of type `Req`; a request `r` is answered by
a value of type `Reply r`. -/
inductive Program (Req : Type) (Reply : Req → Type) (α : Type) : Type where
  | done (a : α)
  | ask (r : Req) (next : Reply r → Program Req Reply α)

namespace Program

variable {Req : Type} {Reply : Req → Type} {α β σ : Type}

/-- Goes on with `f` after the program has finished. -/
def bind (p : Program Req Reply α) (f : α → Program Req Reply β) : Program Req Reply β :=
  match p with
  | .done a => f a
  | .ask r next => .ask r fun reply => (next reply).bind f

instance : Monad (Program Req Reply) where
  pure := .done
  bind := bind

/-- The program that makes one request and finishes with the reply. -/
def request (r : Req) : Program Req Reply (Reply r) := .ask r .done

/-- Runs a program against surroundings with a state. -/
def run (handle : (r : Req) → σ → Reply r × σ) : Program Req Reply α → σ → α × σ
  | .done a, s => (a, s)
  | .ask r next, s => (next (handle r s).1).run handle (handle r s).2

/-- The program after its first request has been answered. -/
def step (handle : (r : Req) → σ → Reply r × σ) :
    Program Req Reply α → σ → Program Req Reply α × σ
  | .done a, s => (.done a, s)
  | .ask r next, s => (next (handle r s).1, (handle r s).2)

@[simp] theorem pure_eq (a : α) : (pure a : Program Req Reply α) = .done a := rfl

@[simp] theorem done_bind (a : α) (f : α → Program Req Reply β) : (done a >>= f) = f a := rfl

@[simp] theorem ask_bind (r : Req) (next : Reply r → Program Req Reply α)
    (f : α → Program Req Reply β) :
    (ask r next >>= f) = ask r (fun reply => next reply >>= f) := rfl

theorem bind_bind {γ : Type} (p : Program Req Reply α) (f : α → Program Req Reply β)
    (g : β → Program Req Reply γ) : (p.bind f).bind g = p.bind fun a => (f a).bind g := by
  induction p with
  | done a => rfl
  | ask r next ih => simp only [bind, ih]

theorem bind_done (p : Program Req Reply α) : p.bind done = p := by
  induction p with
  | done a => rfl
  | ask r next ih => simp only [bind, ih]

instance : LawfulMonad (Program Req Reply) :=
  LawfulMonad.mk' _ (fun p => bind_done p) (fun _ _ => rfl) (fun p f g => bind_bind p f g)

@[simp] theorem run_done (handle : (r : Req) → σ → Reply r × σ) (a : α) (s : σ) :
    (done a : Program Req Reply α).run handle s = (a, s) := rfl

/-- Running a request is handling it. -/
@[simp] theorem run_request (handle : (r : Req) → σ → Reply r × σ) (r : Req) (s : σ) :
    (request r : Program Req Reply (Reply r)).run handle s = handle r s := rfl

/-- Running one program after another is running both. -/
theorem run_bind (handle : (r : Req) → σ → Reply r × σ) (p : Program Req Reply α)
    (f : α → Program Req Reply β) (s : σ) :
    (p >>= f).run handle s = (f (p.run handle s).1).run handle (p.run handle s).2 := by
  induction p generalizing s with
  | done a => rfl
  | ask r next ih => exact ih _ _

end Program
end Reconciliation
