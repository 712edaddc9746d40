/- Capital and small letters among the first 128 characters. -/
namespace TreeShape

namespace Text

/-- Small letters in place of the capital ones; all other characters stay. -/
def lower (s : String) : String := String.ofList (s.toList.map Char.toLower)

end Text

end TreeShape
