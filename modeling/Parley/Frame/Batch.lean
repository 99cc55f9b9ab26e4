import Parley.Text.Cut

/-!
# Batches of payloads

Payloads written together share one frame, with a line feed between any two.
-/

namespace Parley
namespace Batch

/-- The mark between payloads of one frame. -/
def separator : Char := '\n'

/-- The frame of several payloads. -/
def join (payloads : List String) : String :=
  String.intercalate (String.singleton separator) payloads

/-- The payloads of a frame. -/
def split (frame : String) : List String :=
  (Text.pieces separator frame.toList).map String.ofList

end Batch
end Parley
