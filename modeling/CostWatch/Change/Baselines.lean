import CostWatch.Cost.Record
import CostWatch.Table

/-!
Baselines: for each document the text with which its next save is compared.
-/

set_option autoImplicit false

namespace CostWatch

abbrev Baselines := Table Document String

namespace Baselines

def putIfAbsent (b : Baselines) (d : Document) (text : String) : Baselines :=
  if b.contains d then b else b.put d text

end Baselines

end CostWatch
