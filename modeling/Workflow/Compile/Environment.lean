import Workflow.Compile.Basic
import Workflow.Text.Numeral

/-!
Settings of the compiler from environment variables.
-/

namespace Workflow.CompilerConfig

/-- The settings, changed by `WEAVE_CACHE_CAPACITY` and `WEAVE_SOURCE_COMMENTS`. A capacity that is no number is
ignored. -/
def ofEnvironment (env : Table String) : CompilerConfig :=
  let config : CompilerConfig := {}
  let config := match (env.get? "WEAVE_CACHE_CAPACITY").bind fun v =>
      Text.unsigned? 0xffffffffffffffff (Text.trim v.toList) with
    | some capacity => { config with cacheCapacity := capacity }
    | none => config
  match env.get? "WEAVE_SOURCE_COMMENTS" with
  | some v =>
    let off := ["0", "false", "no", "off"].contains (String.ofList (Text.trim v.toList))
    { config with sourceComments := !off }
  | none => config

end Workflow.CompilerConfig
