import Vitals.Access
import Vitals.Wire.Json

/-!
# A registry in a file

The file holds a list of services as JSON. It is read anew for every answer.
-/

namespace Vitals

/-- What reading a file gives: its bytes, or the reason why there are none. -/
abbrev FileContent := Except String (List UInt8)

/-- The reason why a file that does not exist cannot be read. -/
def noSuchFile : String := "No such file or directory (os error 2)"

/-- The services in a file. -/
def fileServices (content : FileContent) : Except AccessFault (List Service) :=
  match content with
  | .error reason => .error (.io reason)
  | .ok bytes =>
    match (Json.Codec.list Service.codec).parse bytes with
    | .ok services => .ok services
    | .error fault => .error (.parse (fault.report bytes))

/-- The answers of a registry whose file has the content. -/
def Registry.ofFile (content : FileContent) : Registry where
  listing := (fileServices content).mapError AccessFault.toRegistryFault
  lookup name := do
    let services ← (fileServices content).mapError AccessFault.toRegistryFault
    namedServices name services

instance : Discovery FileContent := ⟨Registry.ofFile, false⟩

end Vitals
