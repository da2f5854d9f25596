import GameConfig.Emit.Basic
import GameConfig.Emit.Lua.Reader
import GameConfig.Number.Printer
import GameConfig.Options
import GameConfig.Text.Lowercase

/-
  The Lua module that reads exported data, and its typing for TypeScript.

  The module has a function that takes the readers of collections and gives back
  the enums, a reader for each bean and the list of tables.  The reader of a
  bean that others inherit from looks the spelling of the type up in a table of
  its concrete descendants (`Lua.subtypeEntries`).
-/

namespace GameConfig

namespace Lua

/-- The lines one after the other. -/
def ofLines (lines : List String) : String := String.join (lines.map fun l => l ++ "\n")

/-- The start of the module. -/
def prelude : List String := [
  "local function InitTypes(methods)",
  "    local readList = methods.readList",
  "    local readArray = methods.readArray or methods.readList",
  "    local readSet = methods.readSet",
  "    local readMap = methods.readMap",
  "",
  "    local function readBool(x) return x end",
  "    local function readByte(x) return x end",
  "    local function readShort(x) return x end",
  "    local function readInt(x) return x end",
  "    local function readLong(x) return x end",
  "    local function readFloat(x) return x end",
  "    local function readDouble(x) return x end",
  "    local function readString(x) return x end",
  "    local function readDateTime(x) return x end",
  "    local function readEnum(x) return x end"]

/-! ## Enums -/

/-- The value of an enum item. -/
def itemValue : ItemValue → String
  | .int v => integerText v
  | .text s => quoted s

def itemLine (i : EnumItem) : String :=
  "            " ++ key i.name ++ " = " ++ itemValue i.value ++ ","

def enumLines (e : EnumDef) : List String :=
  ("        " ++ bracketed e.fullName ++ " = \x7b") :: (e.items.map itemLine ++ ["        \x7d,"])

/-! ## Beans -/

/-- The spellings of the type of a concrete bean: the discriminator, the full name if that is
    another, and the alias. -/
def spellings (s : Schema) (b : BeanDef) : List String :=
  let short := s.discriminator b
  short :: ((if short = b.fullName then [] else [b.fullName]) ++ b.altName.toList)

/-- The spellings of all concrete descendants of a bean, each with the full name that it stands
    for. -/
def subtypeEntries (s : Schema) (b : BeanDef) : List (String × String) :=
  b.concrete.flatMap fun id =>
    (spellings s (s.bean id)).map fun word => (word, (s.bean id).fullName)

/-- The reader of a bean that others inherit from. -/
def abstractLines (s : Schema) (b : BeanDef) : List String :=
  ("        local _subtypes = \x7b" ::
    (subtypeEntries s b).map fun e =>
      "            " ++ bracketed e.1 ++ " = " ++ quoted e.2 ++ ",") ++
  ["        \x7d",
    "        class._deserialize = function(data)",
    "            local t = data" ++ bracketed typeKey ++ " or data" ++ bracketed fallbackTypeKey,
    "            local sub = _subtypes[t]",
    "            if sub == nil then error('unknown subtype ' .. tostring(t) .. ' of ' .. " ++
      quoted b.fullName ++ ") end",
    "            return beans[sub]._deserialize(data)",
    "        end"]

/-- The line that reads a field. -/
def fieldLine (s : Schema) (factoryTag : String) (f : Field) : String :=
  let source := member "data" f.name
  let assign := member "o" f.name ++ " = " ++ readExpr s (f.hasTag factoryTag) source f.ty
  if f.ty.nullable then "            if " ++ source ++ " ~= nil then " ++ assign ++ " end"
  else "            " ++ assign

/-- The reader of a bean that nothing inherits from. -/
def concreteLines (s : Schema) (factoryTag : String) (b : BeanDef) : List String :=
  ["        class._deserialize = function(data)",
    "            local o = setmetatable(\x7b\x7d, class)"] ++
  b.allFields.map (fieldLine s factoryTag) ++
  ["            return o",
    "        end"]

def beanLines (s : Schema) (factoryTag : String) (b : BeanDef) : List String :=
  ["",
    "    do",
    "        local class = " ++
      braces ("_name = " ++ quoted b.fullName ++ ", _type_ = " ++ quoted b.name),
    "        class.__index = class"] ++
  (if b.isAbstract then abstractLines s b else concreteLines s factoryTag b) ++
  ["        beans" ++ bracketed b.fullName ++ " = class",
    "    end"]

/-! ## Tables -/

def tableLine (s : Schema) (t : TableDef) : String :=
  "        " ++ braces ("name = " ++ quoted t.name ++
    ", file = " ++ quoted (Text.lowercase t.name) ++ ", mode = " ++ quoted t.mode.name ++ ", value_type = " ++
    quoted (s.bean t.valueType).fullName ++
    match t.index with
    | some index => ", index = " ++ quoted index
    | none => "") ++ ","

/-! ## Files -/

/-- The module. -/
def moduleText (factoryTag : String) (s : Schema) : String :=
  ofLines (prelude ++
    ["", "    local enums = \x7b"] ++ s.enums.flatMap enumLines ++ ["    \x7d"] ++
    ["", "    local beans = \x7b\x7d"] ++ s.beans.flatMap (beanLines s factoryTag) ++
    ["", "    local tables = \x7b"] ++ s.tables.map (tableLine s) ++ ["    \x7d"] ++
    ["",
      "    return " ++ braces "enums = enums, beans = beans, tables = tables",
      "end",
      "",
      "return " ++ braces "InitTypes = InitTypes"])

/-- The typing of the module. -/
def typingText : String :=
  ofLines [
    "type deserializer = (item: unknown) => unknown",
    "",
    "export interface Methods \x7b",
    "    readList: (cfg: Array<unknown>, deserializer: deserializer, factory?: boolean) => object,",
    "    readArray?: (cfg: Array<unknown>, deserializer: deserializer, " ++
      "factory?: boolean) => object,",
    "    readSet: (cfg: Array<unknown>, deserializer: deserializer, factory?: boolean) => object,",
    "    readMap: (cfg: Array<[unknown, unknown]> | Record<string, unknown>, " ++
      "deserializer: deserializer) => object,",
    "\x7d",
    "",
    "export interface TableMeta \x7b",
    "    name: string;",
    "    file: string;",
    "    mode: \"map\" | \"list\" | \"one\" | \"singleton\" | \"single\" | \"array\";",
    "    index?: string;",
    "    value_type: string;",
    "\x7d",
    "",
    "export interface DeserializerBean \x7b",
    "    _deserialize: (data: unknown) => unknown",
    "\x7d",
    "",
    "export function InitTypes(methods: Methods): \x7b",
    "    enums: Record<string, Record<string, number | string>>,",
    "    beans: Record<string, DeserializerBean>,",
    "    tables: TableMeta[],",
    "\x7d"]

/-- The path of the typing of a module: its ending replaced, if it has the usual one. -/
def typingPath (path : String) : String :=
  match Text.dropFront? ".lua".toList.reverse path.toList.reverse with
  | some stem => String.ofList stem.reverse ++ ".d.ts"
  | none => path ++ ".d.ts"

end Lua

/-- The files to write: the module and its typing. -/
def LuaOptions.files (o : LuaOptions) (s : Schema) : List OutputFile :=
  [⟨o.outputFile, Lua.moduleText o.factoryTag s⟩, ⟨Lua.typingPath o.outputFile, Lua.typingText⟩]

end GameConfig
