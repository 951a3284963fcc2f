/-
# Builtin functions

Well-known functions of the source that the target provides as builtins, and the record of those a
module has used.
-/

import AikenForge.Table

namespace AikenForge

/-- The module that provides the builtins. -/
def builtinModule : String :=
  "aiken/builtin"

/-- Source names of builtins and their target names. -/
def standardBuiltins : Table String :=
  [("sha256", "sha2_256"), ("sha2_256", "sha2_256"), ("sha3_256", "sha3_256"),
   ("blake2b_224", "blake2b_224"), ("blake2b_256", "blake2b_256"), ("keccak256", "keccak_256"),
   ("ripemd160", "ripemd_160"), ("verify_ed25519_signature", "verify_ed25519_signature"),
   ("verify_ecdsa_secp256k1_signature", "verify_ecdsa_secp256k1_signature"),
   ("verify_schnorr_secp256k1_signature", "verify_schnorr_secp256k1_signature"),
   ("head", "head_list"), ("tail", "tail_list"), ("is_empty", "null_list"), ("cons", "cons_list"),
   ("fst", "fst_pair"), ("snd", "snd_pair"), ("append_bytes", "append_bytearray"),
   ("slice_bytes", "slice_bytearray"), ("bytes_length", "length_of_bytearray"),
   ("index_bytes", "index_bytearray"), ("encode_utf8", "encode_utf8"),
   ("decode_utf8", "decode_utf8"), ("int_to_bytes", "integer_to_bytearray"),
   ("bytes_to_int", "bytearray_to_integer"), ("i_data", "i_data"), ("b_data", "b_data"),
   ("un_i_data", "un_i_data"), ("un_b_data", "un_b_data"), ("constr_data", "constr_data"),
   ("un_constr_data", "un_constr_data"), ("list_data", "list_data"), ("map_data", "map_data"),
   ("equals_data", "equals_data"), ("serialise_data", "serialise_data"),
   ("quotient", "quotient_integer"), ("remainder", "remainder_integer"), ("trace", "debug")]

/-- A table of builtins and the target names used so far, in order of first use. -/
structure Registry where
  mappings : Table String := standardBuiltins
  used : List String := []

namespace Registry

/-- Whether a source name is a builtin. -/
def isBuiltin (registry : Registry) (name : String) : Bool :=
  registry.mappings.contains name

/-- Record the use of a target name; a name is recorded once. -/
def use (registry : Registry) (target : String) : Registry :=
  { registry with used := addOnce registry.used target }

/-- The target name of a builtin, and the registry that has recorded its use. -/
def resolve? (registry : Registry) (name : String) : Option (String × Registry) :=
  (registry.mappings.find? name).map fun target => (target, registry.use target)

/-- The registry with nothing used. -/
def reset (registry : Registry) : Registry :=
  { registry with used := [] }

/-- The line that imports the builtins used, in ascending order: `use aiken/builtin.{a, b}`. -/
def importLine? (registry : Registry) : Option String :=
  if registry.used.isEmpty then none
  else
    let names := registry.used.mergeSort fun a b => decide (a ≤ b)
    some ("use " ++ builtinModule ++ ".\x7b" ++ ", ".intercalate names ++ "\x7d")

end Registry

end AikenForge
