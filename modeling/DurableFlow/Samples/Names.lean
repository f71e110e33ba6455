/-! # Names of the types that sample flows use -/

namespace DurableFlow.Samples

/-- What error messages call the types of the sample flows. -/
structure TypeNames where
  unit : String
  word32 : String
  word64 : String
  int64 : String
  text : String
  words : String
  tally : String
  identity : String
  value : String
  values : String
  valueLists : String
  relation : String

end DurableFlow.Samples
