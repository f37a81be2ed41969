import TonVm.Proof.GasComputations

/-!
# Gas consumers

A computation through a gas consumer is told by the cells and the slices the consumer answers with. A
consumer is here the relation of its answers: what it may finalize a builder to, and what it may load a
cell as. A run that returns follows one sequence of answers; a computation that returns for every
sequence has no failure of its own.
-/

namespace TonVm

open ExecLib

/-- The answers of a gas consumer. -/
structure ConsumerOf (C S B : Type) where
  Finalizes : B → C → Prop
  Loads : C → S → Prop

namespace GasMOf

variable {C S B α β : Type} (consumer : ConsumerOf C S B)

/-- The computation may return a value, with answers of the consumer. -/
def Yields : GasMOf C S B α → α → Prop
  | .pure a, b => a = b
  | .fail _, _ => False
  | .finalizeCell builder next, b =>
    ∃ cell, consumer.Finalizes builder cell ∧ (next cell).Yields b
  | .loadCell cell next, b => ∃ slice, consumer.Loads cell slice ∧ (next slice).Yields b

/-- The computation returns a value with a property, whatever the consumer answers. -/
def Returns (Q : α → Prop) : GasMOf C S B α → Prop
  | .pure a => Q a
  | .fail _ => False
  | .finalizeCell builder next => ∀ cell, consumer.Finalizes builder cell → (next cell).Returns Q
  | .loadCell cell next => ∀ slice, consumer.Loads cell slice → (next slice).Returns Q

/-- Whatever the consumer answers, the computation returns a value with a property or has one of some
failures of its own. -/
def Meets (E : Failure → Prop) (Q : α → Prop) : GasMOf C S B α → Prop
  | .pure a => Q a
  | .fail failure => E failure
  | .finalizeCell builder next => ∀ cell, consumer.Finalizes builder cell → (next cell).Meets E Q
  | .loadCell cell next => ∀ slice, consumer.Loads cell slice → (next slice).Meets E Q

variable {consumer} {m : GasMOf C S B α} {f : α → GasMOf C S B β} {Q R : α → Prop} {P : β → Prop}

theorem yields_bind {b : β} :
    (m >>= f).Yields consumer b ↔ ∃ a, m.Yields consumer a ∧ (f a).Yields consumer b := by
  induction m with
  | pure a =>
    constructor
    · intro h
      exact ⟨a, rfl, h⟩
    · rintro ⟨_, rfl, h⟩
      exact h
  | fail err =>
    constructor
    · intro h
      exact h.elim
    · rintro ⟨_, h, -⟩
      exact h.elim
  | finalizeCell builder next ih =>
    constructor
    · rintro ⟨cell, hcell, h⟩
      obtain ⟨a, ha, hb⟩ := (ih cell).1 h
      exact ⟨a, ⟨cell, hcell, ha⟩, hb⟩
    · rintro ⟨a, ⟨cell, hcell, ha⟩, hb⟩
      exact ⟨cell, hcell, (ih cell).2 ⟨a, ha, hb⟩⟩
  | loadCell cell next ih =>
    constructor
    · rintro ⟨slice, hslice, h⟩
      obtain ⟨a, ha, hb⟩ := (ih slice).1 h
      exact ⟨a, ⟨slice, hslice, ha⟩, hb⟩
    · rintro ⟨a, ⟨slice, hslice, ha⟩, hb⟩
      exact ⟨slice, hslice, (ih slice).2 ⟨a, ha, hb⟩⟩

theorem yields_liftM {x : Except Failure α} {a : α} :
    (liftM x : GasMOf C S B α).Yields consumer a ↔ x = .ok a := by
  cases x with
  | error failure => exact ⟨False.elim, nofun⟩
  | ok b => exact ⟨fun h => congrArg _ h, Except.ok.inj⟩

namespace Meets

variable {E : Failure → Prop}

theorem mono (h : m.Meets consumer E Q) (hR : ∀ a, Q a → R a) : m.Meets consumer E R := by
  induction m with
  | pure a => exact hR a h
  | fail failure => exact h
  | finalizeCell builder next ih => exact fun cell hcell => ih cell (h cell hcell)
  | loadCell cell next ih => exact fun slice hslice => ih slice (h slice hslice)

theorem bind (hm : m.Meets consumer E Q) (hf : ∀ a, Q a → (f a).Meets consumer E P) :
    (m >>= f).Meets consumer E P := by
  induction m with
  | pure a => exact hf a hm
  | fail failure => exact hm
  | finalizeCell builder next ih => exact fun cell hcell => ih cell (hm cell hcell)
  | loadCell cell next ih => exact fun slice hslice => ih slice (hm slice hslice)

theorem liftM {x : Except Failure α} (hfail : ∀ failure, x = .error failure → E failure)
    (hok : ∀ a, x = .ok a → Q a) : (liftM x : GasMOf C S B α).Meets consumer E Q := by
  cases x with
  | error failure => exact hfail failure rfl
  | ok a => exact hok a rfl

theorem ite {c : Prop} [Decidable c] {n : GasMOf C S B α} (hm : c → m.Meets consumer E Q)
    (hn : ¬c → n.Meets consumer E Q) : (if c then m else n).Meets consumer E Q := by
  by_cases h : c
  · rw [if_pos h]
    exact hm h
  · rw [if_neg h]
    exact hn h

theorem of_yields (h : m.Meets consumer E Q) {a : α} (ha : m.Yields consumer a) : Q a := by
  induction m with
  | pure b =>
    cases ha
    exact h
  | fail failure => exact ha.elim
  | finalizeCell builder next ih =>
    obtain ⟨cell, hcell, ha⟩ := ha
    exact ih cell (h cell hcell) ha
  | loadCell cell next ih =>
    obtain ⟨slice, hslice, ha⟩ := ha
    exact ih slice (h slice hslice) ha

/-- The value that is returned is one that a run yields. -/
theorem yields (h : m.Meets consumer E Q) :
    m.Meets consumer E fun a => m.Yields consumer a ∧ Q a := by
  induction m with
  | pure a => exact ⟨rfl, h⟩
  | fail failure => exact h
  | finalizeCell builder next ih =>
    intro cell hcell
    exact (ih cell (h cell hcell)).mono fun a ha => ⟨⟨cell, hcell, ha.1⟩, ha.2⟩
  | loadCell cell next ih =>
    intro slice hslice
    exact (ih slice (h slice hslice)).mono fun a ha => ⟨⟨slice, hslice, ha.1⟩, ha.2⟩

/-- Without failures of its own, the computation returns. -/
theorem returns (h : m.Meets consumer (fun _ => False) Q) : m.Returns consumer Q := by
  induction m with
  | pure a => exact h
  | fail failure => exact h
  | finalizeCell builder next ih => exact fun cell hcell => ih cell (h cell hcell)
  | loadCell cell next ih => exact fun slice hslice => ih slice (h slice hslice)

end Meets

end GasMOf

variable [TonTypes] {α : Type}

abbrev Consumer : Type := ConsumerOf Cell SliceData BuilderData

namespace GasM

variable {consumer : Consumer}

theorem yields_finalize {builder : BuilderData} {cell : Cell} :
    (GasM.finalize builder).Yields consumer cell ↔ consumer.Finalizes builder cell := by
  constructor
  · rintro ⟨_, hcell, rfl⟩
    exact hcell
  · intro hcell
    exact ⟨cell, hcell, rfl⟩

end GasM

namespace Engine

/-- The engine as a consumer: what it finalizes and loads in some state. -/
def consumer : Consumer where
  Finalizes builder cell := ∃ e t, exec (finalizeCell builder) e = (.ok cell, t)
  Loads cell slice := ∃ e t, exec (loadCell cell) e = (.ok slice, t)

theorem yields_of_exec_runGas {m : GasM α} {e t : Engine} {a : α}
    (h : exec (runGas m) e = (.ok a, t)) : m.Yields consumer a := by
  unfold runGas at h
  induction m generalizing e with
  | pure b =>
    cases h
    rfl
  | fail err => cases h
  | finalizeCell builder next ih =>
    obtain ⟨cell, s, hcell, hrest⟩ := exec_bind_eq_ok h
    exact ⟨cell, ⟨e, s, hcell⟩, ih cell hrest⟩
  | loadCell cell next ih =>
    obtain ⟨slice, s, hslice, hrest⟩ := exec_bind_eq_ok h
    exact ⟨slice, ⟨e, s, hslice⟩, ih slice hrest⟩

end Engine

end TonVm
