/-
  Foundation/File.lean --- the bytes of a file under writes at an offset.

  A process writes where its own offset is, whatever others have made of the file; what
  lies between the end of the file and the offset reads as zeros.

  WHAT IS PROVED.

      writeAt_take      a writer that is alone lays down a prefix of its bytes
-/
import Sape.Foundation.Codec

set_option autoImplicit false

namespace Sape.Foundation

/-- `write(2)` at an offset. -/
def writeAt (file : Bytes) (offset : Nat) (bytes : Bytes) : Bytes :=
  (file ++ List.replicate (offset - file.length) 0).take offset ++ bytes ++
    file.drop (offset + bytes.length)

/-- Where the first bytes of `data` are there and nothing else, the next ones are laid down
behind them. -/
theorem writeAt_take {data : Bytes} {offset : Nat} (hle : offset ≤ data.length) (count : Nat) :
    writeAt (data.take offset) offset ((data.drop offset).take count) =
      data.take (offset + count) := by
  have hlength : (data.take offset).length = offset := List.length_take_of_le hle
  have hdrop : (data.take offset).drop (offset + ((data.drop offset).take count).length) = [] :=
    List.drop_eq_nil_of_le (by omega)
  rw [writeAt, hlength, Nat.sub_self, List.replicate_zero, List.append_nil, List.take_take,
    Nat.min_self, hdrop, List.append_nil, List.take_add]

end Sape.Foundation
