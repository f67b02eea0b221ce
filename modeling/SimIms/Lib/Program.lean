/-!
# Programs over operations

A `Program` issues operations one at a time and goes on with the answer of each; it ends with
a value or an exception. What an operation does to the state that programs share is not part
of it.

A `Contract` says which operations a program may issue and which answers it may rely on, both
by a history variable that follows the program. `Meets` is the triple of a program for a
contract, with one rule for each way to build programs.
-/

namespace Lib

/-- Operations, each with the type of its answer. -/
structure Interface where
  Op : Type
  Answer : Op → Type

inductive Program (F : Interface) (ε α : Type) where
  | pure (a : α)
  | throw (e : ε)
  | call (op : F.Op) (next : F.Answer op → Program F ε α)

/-- The operations of `F` are among those of `G`. -/
class Includes (F G : Interface) where
  embed : F.Op → G.Op
  answer : (op : F.Op) → G.Answer (embed op) → F.Answer op

instance (F : Interface) : Includes F F := ⟨id, fun _ answer => answer⟩

namespace Program

variable {F G : Interface} {ε δ α β : Type}

def bind : Program F ε α → (α → Program F ε β) → Program F ε β
  | .pure a, f => f a
  | .throw e, _ => .throw e
  | .call op next, f => .call op fun answer => (next answer).bind f

instance : Monad (Program F ε) where
  pure := .pure
  bind := bind

theorem bind_assoc {γ : Type} (p : Program F ε α) (f : α → Program F ε β)
    (g : β → Program F ε γ) : p >>= f >>= g = p >>= fun a => f a >>= g := by
  induction p with
  | pure a => rfl
  | throw e => rfl
  | call op next ih => exact congrArg (Program.call op) (funext ih)

/-- Issue one operation. -/
def perform [Includes F G] (op : F.Op) : Program G ε (F.Answer op) :=
  .call (Includes.embed op) fun answer => .pure (Includes.answer op answer)

def ofExcept : Except ε α → Program F ε α
  | .ok a => .pure a
  | .error e => .throw e

/-- Go on with an expected value, or return its error. -/
def andThen (p : Program F ε (Except δ α)) (f : α → Program F ε (Except δ β)) :
    Program F ε (Except δ β) :=
  p.bind fun
    | .ok a => f a
    | .error e => .pure (.error e)

/-- A program with another one in the place of each of its operations. -/
def translate (f : (op : F.Op) → Program G ε (F.Answer op)) : Program F ε α → Program G ε α
  | .pure a => .pure a
  | .throw e => .throw e
  | .call op next => (f op).bind fun answer => (next answer).translate f

/-- The same program over more operations. -/
def lift [Includes F G] (p : Program F ε α) : Program G ε α := p.translate fun op => perform op

/-- The run of a program that nothing interferes with, where the environment does not change. -/
def alone {σ η ω : Type} (serve : σ → (op : F.Op) → η → Option (σ × F.Answer op × List ω))
    (environment : η) : Program F ε α → σ → Option (σ × Except ε α × List ω)
  | .pure a, s => some (s, .ok a, [])
  | .throw e, s => some (s, .error e, [])
  | .call op next, s =>
      match serve s op environment with
      | none => none
      | some (t, answer, out) =>
          ((next answer).alone serve environment t).map fun result =>
            (result.1, result.2.1, out ++ result.2.2)

/-- One operation, and then the rest. -/
theorem alone_call {σ η ω : Type} {serve : σ → (op : F.Op) → η → Option (σ × F.Answer op × List ω)}
    {environment : η} {s t u : σ} {op : F.Op} {next : F.Answer op → Program F ε α}
    {answer : F.Answer op} {out more : List ω} {result : Except ε α}
    (hserve : serve s op environment = some (t, answer, out))
    (hnext : (next answer).alone serve environment t = some (u, result, more)) :
    (Program.call op next).alone serve environment s = some (u, result, out ++ more) := by
  simp only [alone, hserve, hnext, Option.map_some]

/-- The first operation of a program that runs alone. -/
theorem alone_call_eq_some {σ η ω : Type}
    {serve : σ → (op : F.Op) → η → Option (σ × F.Answer op × List ω)} {environment : η} {s u : σ}
    {op : F.Op} {next : F.Answer op → Program F ε α} {out : List ω} {result : Except ε α}
    (h : (Program.call op next).alone serve environment s = some (u, result, out)) :
    ∃ t answer first rest, serve s op environment = some (t, answer, first) ∧
      (next answer).alone serve environment t = some (u, result, rest) ∧ out = first ++ rest := by
  rw [alone] at h
  split at h
  · cases h
  · rename_i t answer first hserve
    obtain ⟨⟨_, _, rest⟩, hnext, heq⟩ := Option.map_eq_some_iff.mp h
    cases heq
    exact ⟨t, answer, first, rest, hserve, hnext, rfl⟩

section

variable {σ η ω : Type} {serve : σ → (op : F.Op) → η → Option (σ × F.Answer op × List ω)}
variable {environment : η} {p : Program F ε α} {s t u : σ} {out more : List ω}

/-- A program that ends, and then the rest. -/
theorem alone_bind {f : α → Program F ε β} {a : α} {result : Except ε β}
    (hfirst : p.alone serve environment s = some (t, .ok a, out))
    (hrest : (f a).alone serve environment t = some (u, result, more)) :
    (p >>= f).alone serve environment s = some (u, result, out ++ more) := by
  induction p generalizing s out with
  | pure b =>
      cases hfirst
      exact hrest
  | throw e => cases hfirst
  | call op next ih =>
      obtain ⟨v, answer, first, rest, hserve, hnext, rfl⟩ := alone_call_eq_some hfirst
      rw [List.append_assoc]
      exact alone_call hserve (ih answer hnext)

theorem alone_andThen {p : Program F ε (Except δ α)} {f : α → Program F ε (Except δ β)} {a : α}
    {result : Except ε (Except δ β)}
    (hfirst : p.alone serve environment s = some (t, .ok (.ok a), out))
    (hrest : (f a).alone serve environment t = some (u, result, more)) :
    (p.andThen f).alone serve environment s = some (u, result, out ++ more) :=
  alone_bind hfirst hrest

theorem alone_andThen_quiet {p : Program F ε (Except δ α)} {f : α → Program F ε (Except δ β)}
    {a : α} {result : Except ε (Except δ β)}
    (hfirst : p.alone serve environment s = some (t, .ok (.ok a), []))
    (hrest : (f a).alone serve environment t = some (u, result, more)) :
    (p.andThen f).alone serve environment s = some (u, result, more) :=
  alone_bind hfirst hrest

/-- Where every operation is replaced by a program that answers as it does, so does the whole
program. -/
theorem alone_translate {τ ζ υ : Type}
    {serve' : τ → (op : G.Op) → ζ → Option (τ × G.Answer op × List υ)} {environment' : ζ}
    {f : (op : F.Op) → Program G ε (F.Answer op)} {R : σ → τ → Prop} {s' : τ}
    {result : Except ε α} (hR : R s s')
    (hf : ∀ s s' op t answer out, R s s' → serve s op environment = some (t, answer, out) →
      ∃ t' out', (f op).alone serve' environment' s' = some (t', .ok answer, out') ∧ R t t')
    (hrun : p.alone serve environment s = some (t, result, out)) :
    ∃ t' out', (p.translate f).alone serve' environment' s' = some (t', result, out') ∧ R t t' := by
  induction p generalizing s s' out with
  | pure a =>
      cases hrun
      exact ⟨s', [], rfl, hR⟩
  | throw e =>
      cases hrun
      exact ⟨s', [], rfl, hR⟩
  | call op next ih =>
      obtain ⟨u, answer, first, rest, hserve, hnext, -⟩ := alone_call_eq_some hrun
      obtain ⟨u', first', hfirst, hRu⟩ := hf s s' op u answer first hR hserve
      obtain ⟨t', rest', hrest, hRt⟩ := ih answer hRu hnext
      exact ⟨t', first' ++ rest', alone_bind hfirst hrest, hRt⟩

end

/-- The end of a run, and the operations that were issued in it. -/
structure Ran (F : Interface) (σ ε α : Type) where
  state : σ
  result : Except ε α
  issued : List F.Op

/-- The run of a program in a world that answers every operation. -/
def runIn {σ : Type} (world : σ → (op : F.Op) → σ × F.Answer op) : Program F ε α → σ → Ran F σ ε α
  | .pure a, s => ⟨s, .ok a, []⟩
  | .throw e, s => ⟨s, .error e, []⟩
  | .call op next, s =>
      let rest := (next (world s op).2).runIn world (world s op).1
      { rest with issued := op :: rest.issued }

section

variable {σ : Type} {world : σ → (op : F.Op) → σ × F.Answer op} {p : Program F ε α}
variable {f : α → Program F ε β} {s : σ}

/-- What comes after a program that returns is run from where it has ended. -/
theorem runIn_bind_of_ok {a : α} (h : (p.runIn world s).result = .ok a) :
    (p >>= f).runIn world s =
      { (f a).runIn world (p.runIn world s).state with
        issued := (p.runIn world s).issued ++
          ((f a).runIn world (p.runIn world s).state).issued } := by
  induction p generalizing s with
  | pure b =>
      cases h
      rfl
  | throw e => cases h
  | call op next ih =>
      have hcall : (Program.call op next >>= f).runIn world s =
          { (next (world s op).2 >>= f).runIn world (world s op).1 with
            issued := op :: ((next (world s op).2 >>= f).runIn world (world s op).1).issued } := rfl
      rw [hcall, ih _ h]
      rfl

theorem result_andThen_of_ok {p : Program F ε (Except δ α)} {f : α → Program F ε (Except δ β)}
    {a : α} (h : (p.runIn world s).result = .ok (.ok a)) :
    ((p.andThen f).runIn world s).result = ((f a).runIn world (p.runIn world s).state).result := by
  exact (congrArg Ran.result (runIn_bind_of_ok h)).trans rfl

theorem result_andThen_of_error {p : Program F ε (Except δ α)}
    {f : α → Program F ε (Except δ β)} {e : δ} (h : (p.runIn world s).result = .ok (.error e)) :
    ((p.andThen f).runIn world s).result = .ok (.error e) := by
  exact (congrArg Ran.result (runIn_bind_of_ok h)).trans rfl

theorem runIn_bind_of_error {e : ε} (h : (p.runIn world s).result = .error e) :
    ((p >>= f).runIn world s).result = .error e := by
  induction p generalizing s with
  | pure b => cases h
  | throw e =>
      cases h
      rfl
  | call op next ih => exact ih _ h

/-- A sequence gives a value where both of its parts do. -/
theorem result_andThen_eq_ok_iff {p : Program F ε (Except δ α)}
    {f : α → Program F ε (Except δ β)} {b : β} :
    ((p.andThen f).runIn world s).result = .ok (.ok b) ↔
      ∃ a, (p.runIn world s).result = .ok (.ok a) ∧
        ((f a).runIn world (p.runIn world s).state).result = .ok (.ok b) := by
  constructor
  · intro h
    cases hfirst : (p.runIn world s).result with
    | error e =>
        have herror : ((p.andThen f).runIn world s).result = .error e := runIn_bind_of_error hfirst
        rw [herror] at h
        cases h
    | ok first =>
        cases first with
        | error e =>
            rw [result_andThen_of_error hfirst] at h
            cases h
        | ok a => exact ⟨a, rfl, (result_andThen_of_ok hfirst).symm.trans h⟩
  · rintro ⟨a, hfirst, hrest⟩
    exact (result_andThen_of_ok hfirst).trans hrest

end

/-- Some answers lead to this end. -/
def MayEnd : Program F ε α → Except ε α → Prop
  | .pure a, r => r = .ok a
  | .throw e, r => r = .error e
  | .call _ next, r => ∃ answer, (next answer).MayEnd r

theorem MayEnd.bind {p : Program F ε α} {f : α → Program F ε β} {a : α} {r : Except ε β}
    (h : p.MayEnd (.ok a)) (hf : (f a).MayEnd r) : (p >>= f).MayEnd r := by
  induction p with
  | pure b =>
      cases h
      exact hf
  | throw e => cases h
  | call op next ih =>
      obtain ⟨answer, h⟩ := h
      exact ⟨answer, ih answer h⟩

/-- What comes after a program that throws is not run. -/
theorem MayEnd.bind_error {p : Program F ε α} {f : α → Program F ε β} {e : ε}
    (h : p.MayEnd (.error e)) : (p >>= f).MayEnd (.error e) := by
  induction p with
  | pure b => cases h
  | throw e' =>
      cases h
      exact rfl
  | call op next ih =>
      obtain ⟨answer, h⟩ := h
      exact ⟨answer, ih answer h⟩

end Program

/-! ## Contracts -/

structure Contract (F : Interface) (γ : Type) where
  Allows : γ → F.Op → Prop
  Expects : (op : F.Op) → F.Answer op → Prop
  Throws : γ → Prop
  track : γ → (op : F.Op) → F.Answer op → γ

namespace Program

variable {F G : Interface} {ε δ α β γ : Type} {c : Contract F γ} {g : γ}

/-- From this history on, every operation is allowed and every result is as stated, whatever
the answers, as long as they are expected ones. -/
def Meets (c : Contract F γ) : γ → Program F ε α → (γ → α → Prop) → Prop
  | g, .pure a, Q => Q g a
  | g, .throw _, _ => c.Throws g
  | g, .call op next, Q =>
      c.Allows g op ∧ ∀ answer, c.Expects op answer → (next answer).Meets c (c.track g op answer) Q

theorem Meets.mono {p : Program F ε α} {Q Q' : γ → α → Prop} (h : p.Meets c g Q)
    (imp : ∀ g a, Q g a → Q' g a) : p.Meets c g Q' := by
  induction p generalizing g with
  | pure a => exact imp g a h
  | throw e => exact h
  | call op next ih => exact ⟨h.1, fun answer hanswer => ih answer (h.2 answer hanswer)⟩

theorem Meets.bind {p : Program F ε α} {f : α → Program F ε β} {Q : γ → α → Prop}
    {R : γ → β → Prop} (h : p.Meets c g Q) (hf : ∀ g a, Q g a → (f a).Meets c g R) :
    (p >>= f).Meets c g R := by
  induction p generalizing g with
  | pure a => exact hf g a h
  | throw e => exact h
  | call op next ih => exact ⟨h.1, fun answer hanswer => ih answer (h.2 answer hanswer)⟩

theorem meets_ofExcept {r : Except ε α} {Q : γ → α → Prop} (hthrows : c.Throws g)
    (h : ∀ a, r = .ok a → Q g a) : (ofExcept r : Program F ε α).Meets c g Q := by
  cases r with
  | ok a => exact h a rfl
  | error e => exact hthrows

/-- Where every answer is expected, a contract without exceptions rules every exception out. -/
theorem Meets.not_mayEnd_error {p : Program F ε α} {Q : γ → α → Prop} {e : ε} (h : p.Meets c g Q)
    (expects : ∀ op answer, c.Expects op answer) (throws : ∀ g, ¬ c.Throws g) :
    ¬ p.MayEnd (.error e) := by
  induction p generalizing g with
  | pure a => exact fun hend => by cases hend
  | throw e' => exact fun _ => throws g h
  | call op next ih =>
      rintro ⟨answer, hend⟩
      exact ih answer (h.2 answer (expects op answer)) hend

/-- A run that nothing interferes with keeps what every allowed operation keeps, as long as it is
answered as expected. -/
theorem Meets.alone {σ η ω : Type} {serve : σ → (op : F.Op) → η → Option (σ × F.Answer op × List ω)}
    {environment : η} {J : γ → σ → List ω → Prop} {p : Program F ε α} {Q : γ → α → Prop}
    (h : p.Meets c g Q)
    (hserve : ∀ g s done op t answer out, J g s done → c.Allows g op →
      serve s op environment = some (t, answer, out) →
      c.Expects op answer ∧ J (c.track g op answer) t (done ++ out))
    {s t : σ} {done out : List ω} {result : Except ε α} (hJ : J g s done)
    (hrun : p.alone serve environment s = some (t, result, out)) : ∃ g', J g' t (done ++ out) := by
  induction p generalizing g s done out with
  | pure a =>
      cases hrun
      rw [List.append_nil]
      exact ⟨g, hJ⟩
  | throw e =>
      cases hrun
      rw [List.append_nil]
      exact ⟨g, hJ⟩
  | call op next ih =>
      rw [Program.alone] at hrun
      cases hserved : serve s op environment with
      | none =>
          simp only [hserved] at hrun
          cases hrun
      | some served =>
          obtain ⟨u, answer, first⟩ := served
          simp only [hserved, Option.map_eq_some_iff] at hrun
          obtain ⟨⟨v, r, more⟩, hrest, heq⟩ := hrun
          cases heq
          obtain ⟨hexpected, hnext⟩ := hserve g s done op u answer first hJ h.1 hserved
          rw [← List.append_assoc]
          exact ih answer (h.2 answer hexpected) hnext hrest

/-- A program of which nothing is asked but what every history of its kind allows. -/
theorem meets_of_invariant {I : γ → Prop} {Q : γ → α → Prop} (p : Program F ε α) (hI : I g)
    (allows : ∀ g op, I g → c.Allows g op) (throws : ∀ g, I g → c.Throws g)
    (tracks : ∀ g op answer, I g → I (c.track g op answer)) (ends : ∀ g a, I g → Q g a) :
    p.Meets c g Q := by
  induction p generalizing g with
  | pure a => exact ends g a hI
  | throw e => exact throws g hI
  | call op next ih =>
      exact ⟨allows g op hI, fun answer _ => ih answer (tracks g op answer hI)⟩

/-- What every operation keeps when it is replaced, the whole program keeps. -/
theorem meets_translate {c : Contract G γ} {I : γ → Prop} {Q : γ → α → Prop}
    {f : (op : F.Op) → Program G ε (F.Answer op)} (p : Program F ε α) (hI : I g)
    (hf : ∀ g op, I g → (f op).Meets c g fun g' _ => I g') (throws : ∀ g, I g → c.Throws g)
    (ends : ∀ g a, I g → Q g a) : (p.translate f).Meets c g Q := by
  induction p generalizing g with
  | pure a => exact ends g a hI
  | throw e => exact throws g hI
  | call op next ih => exact (hf g op hI).bind fun g' answer hI' => ih answer hI'

/-- A program meets its contract where each of its operations is replaced by a program that does
what the contract says of the operation. -/
theorem Meets.translate {c : Contract F γ} {c' : Contract G γ}
    {f : (op : F.Op) → Program G ε (F.Answer op)} {p : Program F ε α} {Q : γ → α → Prop}
    (h : p.Meets c g Q)
    (hf : ∀ g op, c.Allows g op →
      (f op).Meets c' g fun g' answer => c.Expects op answer ∧ g' = c.track g op answer)
    (throws : ∀ g, c.Throws g → c'.Throws g) : (p.translate f).Meets c' g Q := by
  induction p generalizing g with
  | pure a => exact h
  | throw e => exact throws g h
  | call op next ih =>
      refine (hf g op h.1).bind fun g' answer hanswer => ?_
      obtain ⟨hexpected, rfl⟩ := hanswer
      exact ih answer (h.2 answer hexpected)

/-- The triple of a program with an expected value. -/
def Returns (c : Contract F γ) (g : γ) (p : Program F ε (Except δ α)) (Q : γ → α → Prop) : Prop :=
  p.Meets c g fun g r => ∀ a, r = .ok a → Q g a

theorem Returns.andThen {p : Program F ε (Except δ α)} {f : α → Program F ε (Except δ β)}
    {Q : γ → α → Prop} {R : γ → β → Prop} (h : Returns c g p Q)
    (hf : ∀ g a, Q g a → Returns c g (f a) R) : Returns c g (p.andThen f) R := by
  apply Meets.bind h
  intro g r hr
  cases r with
  | ok a => exact hf g a (hr a rfl)
  | error e => exact fun b hb => by cases hb

theorem Returns.bind {p : Program F ε (Except δ α)} {f : Except δ α → Program F ε β}
    {Q : γ → α → Prop} {R : γ → β → Prop} (h : Returns c g p Q)
    (hf : ∀ g r, (∀ a, r = .ok a → Q g a) → (f r).Meets c g R) : (p >>= f).Meets c g R :=
  Meets.bind h hf

theorem returns_pure {r : Except δ α} {Q : γ → α → Prop} (h : ∀ a, r = .ok a → Q g a) :
    Returns c g (.pure r : Program F ε (Except δ α)) Q := h

/-- Nothing is promised of a program that ends in an expected error. -/
theorem returns_error {e : δ} {Q : γ → α → Prop} :
    Returns c g (.pure (.error e) : Program F ε (Except δ α)) Q :=
  returns_pure fun _ h => by cases h

end Program

end Lib
