import Bindings.Fault
import Bindings.Json.Decoder
import Bindings.Json.Value
import Bindings.Options

/-!
This module contains the JSON form of options.
-/

namespace Bindings

open Json (Decoder)
open Json.Decoder (Slot)

namespace Absence

def decode (budget : Nat) : Decoder Absence :=
  Decoder.oneOf budget [("null", .unit null), ("undefined", .unit undefined)]

end Absence

namespace LargeIntegers

def decode (budget : Nat) : Decoder LargeIntegers :=
  Decoder.oneOf budget [("number", .unit number), ("bigint", .unit bigint)]

end LargeIntegers

namespace MapType

def decode (budget : Nat) : Decoder MapType :=
  Decoder.oneOf budget [("Record", .unit record), ("Map", .unit map)]

end MapType

namespace Options

def toJson (o : Options) : Json :=
  .object [("header", .array (o.header.map .string)), ("export", .bool o.exporting),
    ("indent", .number o.indent), ("null_type", .string o.absence.keyword),
    ("large_integers", .string o.largeIntegers.keyword), ("map_type", .string o.mapType.keyword),
    ("optional_fields", .bool o.optionalFields), ("jsdoc", .bool o.jsdoc)]

def slots (budget : Nat) : List (Slot Options) :=
  [.defaulted "header" (Decoder.list budget Decoder.text) fun header o => { o with header },
    .defaulted "export" Decoder.flag fun exporting o => { o with exporting },
    .defaulted "indent" Decoder.size fun indent o => { o with indent },
    .defaulted "null_type" (Absence.decode budget) fun absence o => { o with absence },
    .defaulted "large_integers" (LargeIntegers.decode budget) fun largeIntegers o =>
      { o with largeIntegers },
    .defaulted "map_type" (MapType.decode budget) fun mapType o => { o with mapType },
    .defaulted "optional_fields" Decoder.flag fun optionalFields o => { o with optionalFields },
    .defaulted "jsdoc" Decoder.flag fun jsdoc o => { o with jsdoc }]

def decodeOver (o : Options) (budget : Nat) : Decoder Options :=
  Decoder.record "struct DtsConfig" budget o (slots (budget - 1))

def ofText (text : String) : Except Fault Options :=
  ((decodeOver {} Json.bracketBudget).run text).mapError .description

end Options

end Bindings
