/-!
Texts in increasing order, compared by code points.
-/

namespace TierHost.Text

def sorted (names : List String) : List String := names.mergeSort fun s t => decide (s ≤ t)

def sortedDistinct (names : List String) : List String := sorted names.eraseDups

end TierHost.Text
