import TieredPool.Config.Decode
import TieredPool.Config.Error

/-!
# Load — configurations from text and files

* `PoolConfig.parse` — from TOML text, validated.
* `PoolConfig.load` — from the bytes of a file.
-/

namespace TieredPool
namespace PoolConfig

def parse (toml : DocumentReader) (urls : UrlParser) (text : String) :
    Except ConfigError PoolConfig :=
  match (toml.read? text).bind (Document.toPoolConfig? .toml) with
  | some c => c.validate urls
  | none => .error .parse

/-- The configuration in a file, given its bytes or why they cannot be had. -/
def load (toml : DocumentReader) (urls : UrlParser) (file : Except FileError ByteArray) :
    Except ConfigError PoolConfig :=
  match file with
  | .error e => .error (.file e)
  | .ok bytes =>
      match String.fromUTF8? bytes with
      | some text => parse toml urls text
      | none => .error (.file .notUtf8)

end PoolConfig
end TieredPool
