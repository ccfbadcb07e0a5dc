import ShaderChain.Machine.IoError
import ShaderChain.Machine.Path

/-!
# Errors of configuration files

Why a configuration could not be read from a file or written to one.
-/

set_option autoImplicit false

namespace ShaderChain

/-- Why a configuration was not read or written. -/
inductive ConfigError where
  | unreadable (path : Path) (cause : IoError)
  | unwritable (path : Path) (cause : IoError)
  | parse
  | serialize
deriving DecidableEq, Repr

namespace ConfigError

/-- The error in words. -/
def message : ConfigError → String
  | unreadable path cause =>
    "failed to read config file '" ++ path.text ++ "': " ++ cause.message
  | unwritable path cause =>
    "failed to write config file '" ++ path.text ++ "': " ++ cause.message
  | parse => "failed to parse config: not a configuration"
  | serialize => "failed to serialize config: integer out of range"

end ConfigError

end ShaderChain
