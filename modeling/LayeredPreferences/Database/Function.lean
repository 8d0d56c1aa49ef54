set_option autoImplicit false

/-!
# Names of functions

Which functions there are, by name and by how many contents they take, and where
they may be used.
-/
namespace LayeredPreferences.Database

inductive FunctionKind where
  | steady
  | changing
  | aggregate
  | window
deriving DecidableEq

structure Function where
  name : String
  kind : FunctionKind
  least : Nat
  most : Option Nat

namespace Function

def group (kind : FunctionKind) (least : Nat) (most : Option Nat) (names : List String) :
    List Function :=
  names.map fun name => ⟨name, kind, least, most⟩

/-- Of functions with one name those of a fixed number of contents come first. -/
def all : List Function :=
  [group .aggregate 1 (some 1) ["avg", "json_group_array", "jsonb_group_array", "max", "min", "sum",
      "total"],
    group .aggregate 0 (some 1) ["count"],
    group .aggregate 1 (some 2) ["group_concat"],
    group .aggregate 2 (some 2) ["json_group_object", "jsonb_group_object", "string_agg"],
    group .window 0 (some 0) ["cume_dist", "dense_rank", "percent_rank", "rank", "row_number"],
    group .window 1 (some 1) ["first_value", "last_value", "ntile"],
    group .window 2 (some 2) ["nth_value"],
    group .window 1 (some 3) ["lag", "lead"],
    group .steady 0 (some 0) ["fts5_source_id"],
    group .steady 1 (some 1) ["abs", "hex", "json", "json_error_position", "json_quote", "jsonb",
      "length", "likely", "lower", "octet_length", "quote", "sign", "soundex", "subtype", "typeof",
      "unicode", "unlikely", "upper", "zeroblob"],
    group .steady 1 (some 2) ["json_array_length", "json_pretty", "json_type", "json_valid",
      "ltrim", "round", "rtrim", "trim", "unhex"],
    group .steady 2 (some 2) ["->", "->>", "glob", "ifnull", "instr", "json_patch",
      "jsonb_patch", "likelihood", "nullif", "sqlite_log", "timediff"],
    group .steady 2 (some 3) ["like", "substr", "substring"],
    group .steady 3 (some 3) ["iif", "replace"],
    group .steady 0 none ["char", "date", "datetime", "format", "json_array", "json_extract",
      "json_insert", "json_object", "json_remove", "json_replace", "json_set", "jsonb_array",
      "jsonb_extract", "jsonb_insert", "jsonb_object", "jsonb_remove", "jsonb_replace", "jsonb_set",
      "julianday", "printf", "strftime", "time", "unixepoch"],
    group .steady 1 none ["concat", "max", "min"],
    group .steady 2 none ["coalesce", "concat_ws"],
    group .changing 0 (some 0) ["changes", "current_date", "current_time", "current_timestamp",
      "last_insert_rowid", "random", "sqlite_source_id", "sqlite_version", "total_changes"],
    group .changing 1 (some 1) ["fts5", "offsets", "optimize", "randomblob", "rtreedepth",
      "sqlite_compileoption_get", "sqlite_compileoption_used"],
    group .changing 1 (some 2) ["fts3_tokenizer", "load_extension", "matchinfo"],
    group .changing 2 (some 2) ["match", "rtreenode"],
    group .changing 0 none ["bm25", "highlight", "rtreecheck", "snippet"]].flatten

def takes (f : Function) (count : Nat) : Bool := f.least ≤ count && f.most.all (count ≤ ·)

def find? (name : String) (count : Nat) : Option Function :=
  all.find? fun f => f.name = name.toLower && f.takes count

def isKnown (name : String) : Bool := all.any fun f => f.name = name.toLower

end Function

end LayeredPreferences.Database
