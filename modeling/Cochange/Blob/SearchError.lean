import Cochange.Decimal.Layout

/-!
# Parameters that cannot be searched with
-/

namespace Cochange

/-- What is wrong with the parameters of a search on graphs or contexts. -/
inductive SearchError (ω : Type) where
  /-- The least density of blobs is negative or no number. -/
  | badMinDensity (given : ω)
  /-- The largest coupling of an anti-blob is negative or no number. -/
  | badMaxCoupling (given : ω)
  /-- The least size of an anti-blob is zero. -/
  | zeroMinSize
  /-- The least ratio of envy is not between zero and one. -/
  | badEnvyRatio (given : ω)
  /-- The number of envied files that count is zero. -/
  | zeroMaxFiles
  deriving DecidableEq

/-- The text of the error. -/
def SearchError.message (e : SearchError Float) : String :=
  "configuration error: " ++
    match e with
    | badMinDensity x => "min-blob-density can't be negative, got " ++ Decimal.plainText x
    | badMaxCoupling x => "max-anti-coupling can't be negative, got " ++ Decimal.plainText x
    | zeroMinSize => "min-anti-blob-size must be positive"
    | badEnvyRatio x => "min-envy-ratio must be between 0 and 1, got " ++ Decimal.plainText x
    | zeroMaxFiles => "max-envied-files must be positive"

end Cochange
