import DeclCheck.Symbols.Functions
import DeclCheck.Symbols.Types

/-!
# The symbol tables of a run

The type tables and the function table together. Walking bodies changes the function table alone, which
is why the two are kept apart.
-/

namespace DeclCheck

/-- **Everything declared so far.** -/
structure Symbols where
  types : TypeTable
  functions : FunctionTable
  deriving Repr

namespace Symbols

/-- The tables that every check starts from. -/
def initial : Symbols := ⟨.initial, .empty⟩

instance : Inhabited Symbols := ⟨initial⟩

end Symbols

end DeclCheck
