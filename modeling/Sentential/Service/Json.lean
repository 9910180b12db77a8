/-!
# JSON values

The values that requests and responses of the service carry. Numbers are integers.
-/
namespace Sentential

inductive Json where
  | null
  | boolean (value : Bool)
  | integer (value : Int)
  | text (value : String)
  | list (items : List Json)
  | object (fields : List (String × Json))

end Sentential
