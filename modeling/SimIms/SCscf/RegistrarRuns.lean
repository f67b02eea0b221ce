import SimIms.SCscf.RegistrarCalls

/-!
# Runs of the registrar

What every write and everything in the background keeps, every run keeps, however the requests
interleave. A write may rely on what the environment is taken to answer.
-/

namespace SimIms.SCscf

open Cxx Lib Sip Diameter Registration

section

variable [OsipParser] (setting : RegistrarSetting)

def registrarDiscipline (keeps : RegistrarState → Prop) :
    Discipline RegistrarState registrarOps RegistrarThread Unit (Nat × SipMessage) where
  contract := RegistrarThread.contract setting
  assumes := setting.expects
  shared s _ := keeps s
  linked _ _ _ _ := True
  result _ _ := True

structure KeptByRegistrar (keeps : RegistrarState → Prop) : Prop where
  background : ∀ s event, keeps s → keeps (s.background event)
  writes : ∀ (s : RegistrarState) (thread : RegistrarThread) op, keeps s →
    thread.Writes setting op → keeps { s with store := (serveStore s.store s.now none op).1 }

variable {setting}

theorem registrarDiscipline_sound {keeps : RegistrarState → Prop}
    (hkeeps : KeptByRegistrar setting keeps) :
    (registrarDiscipline setting keeps).Sound
      (Registrar.service setting.providers setting.domain) where
  track _ _ _ := rfl
  begins _ := Registrar.handleRegister_goes
  fresh _ _ _ _ _ _ := trivial
  serves s log id thread op environment t answer out hshared hlinked hallows hserve hassumes := by
    refine ⟨?_, hassumes, trivial, fun _ _ _ h => h⟩
    cases op with
    | hss op | provider op | environment op | respond response =>
        cases hserve
        exact hshared
    | store op =>
        cases hserve
        cases op with
        | lookup impu => exact hkeeps.background s (.lookup impu) hshared
        | upsertContacts | removeContacts | removeBindings =>
            exact hkeeps.writes s thread _ hshared hallows.1
  background s log event t hshared hstep := by
    cases hstep
    exact ⟨hkeeps.background s event hshared, fun _ _ h => h⟩

end

end SimIms.SCscf
