import TreeShape.CommandLine.Arguments
/- What reading a command line keeps: values that an option accepts, flags that were said, and values
that were told, however they are written. -/
namespace TreeShape

namespace CommandLine

variable {options : Options} {words : List String} {g g' : Given}

namespace Given

variable {option : ValueOption} {value : String} {flag : Flag}

end Given

namespace Reads

end Reads

end CommandLine

end TreeShape
