/-! # The words with a colour of their own

A fixed vocabulary of JavaScript gives keywords and well-known globals a
category. Some globals also have members: after a dot, a member takes the
category of the word it belongs to.
-/

namespace CodeListing

/-- What a known word is to the language or its surroundings. -/
inductive Category where
  /-- Introduces a binding or a construct: `var`, `function`, `class`. -/
  | defining
  /-- Control flow and operators: `if`, `return`, `typeof`. -/
  | reserved
  /-- Built into the language: `Math`, `JSON`, `parseInt`. -/
  | native
  /-- Stands for a value: `true`, `null`, `undefined`. -/
  | value
  /-- Offered by a browser: `window`, `document`, `console`. -/
  | client
  /-- Entry point of a library or module system. -/
  | library
  deriving Repr, DecidableEq

/-- A known word and the members that are known of it. -/
structure Word where
  /-- The word as it is written; letter case counts. -/
  name : String
  /-- The category of the word and of its members. -/
  category : Category
  /-- The names that are known after the word and a dot. -/
  members : List String
  deriving Repr, DecidableEq

namespace Word

def hasMember (word : Word) (name : String) : Bool :=
  word.members.contains name

end Word

namespace Vocabulary

def plainWords : List (Category × List String) :=
  [(.defining,
    ["var", "let", "const", "function", "class", "new", "delete", "this", "prototype"]),
   (.reserved,
    ["if", "else", "for", "while", "do", "return", "break", "continue", "switch", "case",
     "default", "try", "catch", "finally", "throw", "typeof", "instanceof", "in", "of", "void",
     "with", "debugger", "yield", "async", "await", "import", "export", "extends", "super",
     "static", "enum", "implements", "interface", "package", "private", "protected", "public"]),
   (.native,
    ["Boolean", "Function", "RegExp", "Error", "EvalError", "RangeError", "ReferenceError",
     "SyntaxError", "TypeError", "URIError", "Map", "Set", "WeakMap", "WeakSet", "Proxy",
     "arguments", "eval", "parseInt", "parseFloat", "isNaN", "isFinite", "encodeURI",
     "decodeURI", "encodeURIComponent", "decodeURIComponent", "escape", "unescape"]),
   (.value,
    ["true", "false", "null", "undefined", "NaN", "Infinity"]),
   (.client,
    ["alert", "confirm", "prompt", "setTimeout", "setInterval", "clearTimeout", "clearInterval",
     "requestAnimationFrame", "fetch", "XMLHttpRequest", "Worker", "postMessage", "self",
     "screen", "history", "Image", "Event", "Node", "Element", "HTMLElement"]),
   (.library,
    ["_", "Backbone", "angular", "React", "ReactDOM", "define", "exports"])]

def wordsWithMembers : List Word :=
  [⟨"Math", .native,
    ["E", "LN2", "LN10", "LOG2E", "LOG10E", "PI", "SQRT1_2", "SQRT2", "abs", "acos", "asin",
     "atan", "atan2", "cbrt", "ceil", "cos", "exp", "floor", "hypot", "log", "max", "min", "pow",
     "random", "round", "sign", "sin", "sqrt", "tan", "trunc"]⟩,
   ⟨"JSON", .native, ["parse", "stringify"]⟩,
   ⟨"Object", .native,
    ["assign", "create", "defineProperty", "defineProperties", "entries", "freeze",
     "getOwnPropertyNames", "getPrototypeOf", "keys", "values"]⟩,
   ⟨"Array", .native, ["from", "isArray", "of"]⟩,
   ⟨"String", .native, ["fromCharCode", "raw"]⟩,
   ⟨"Number", .native,
    ["EPSILON", "MAX_VALUE", "MIN_VALUE", "MAX_SAFE_INTEGER", "MIN_SAFE_INTEGER", "NaN",
     "NEGATIVE_INFINITY", "POSITIVE_INFINITY", "isFinite", "isInteger", "isNaN", "parseFloat",
     "parseInt"]⟩,
   ⟨"Date", .native, ["now", "parse", "UTC"]⟩,
   ⟨"Promise", .native, ["all", "allSettled", "any", "race", "reject", "resolve"]⟩,
   ⟨"Symbol", .native, ["for", "iterator", "asyncIterator", "hasInstance", "toPrimitive"]⟩,
   ⟨"Reflect", .native, ["apply", "construct", "get", "has", "ownKeys", "set"]⟩,
   ⟨"window", .client,
    ["addEventListener", "removeEventListener", "open", "close", "scrollTo", "innerWidth",
     "innerHeight", "onload", "location", "document", "navigator"]⟩,
   ⟨"document", .client,
    ["body", "head", "title", "cookie", "createElement", "createTextNode", "getElementById",
     "getElementsByClassName", "getElementsByTagName", "querySelector", "querySelectorAll",
     "addEventListener", "write"]⟩,
   ⟨"console", .client,
    ["assert", "clear", "debug", "dir", "error", "group", "groupEnd", "info", "log", "table",
     "time", "timeEnd", "trace", "warn"]⟩,
   ⟨"navigator", .client, ["userAgent", "language", "platform", "onLine", "geolocation"]⟩,
   ⟨"location", .client,
    ["hash", "host", "hostname", "href", "pathname", "protocol", "search", "reload"]⟩,
   ⟨"localStorage", .client, ["getItem", "setItem", "removeItem", "clear", "key", "length"]⟩,
   ⟨"sessionStorage", .client, ["getItem", "setItem", "removeItem", "clear", "key", "length"]⟩,
   ⟨"$", .library,
    ["ajax", "each", "extend", "fn", "get", "getJSON", "grep", "inArray", "isArray", "map",
     "noConflict", "post", "trim", "when", "Deferred"]⟩,
   ⟨"jQuery", .library,
    ["ajax", "each", "extend", "fn", "get", "getJSON", "grep", "inArray", "isArray", "map",
     "noConflict", "post", "trim", "when", "Deferred"]⟩,
   ⟨"module", .library, ["exports", "id", "require"]⟩,
   ⟨"require", .library, ["cache", "resolve"]⟩]

/-- All known words; no two of them have one name. -/
def words : List Word :=
  plainWords.flatMap (fun (category, names) => names.map (⟨·, category, []⟩)) ++ wordsWithMembers

/-- The known word with this name. -/
def find? (name : String) : Option Word :=
  words.find? (·.name = name)

end Vocabulary

end CodeListing
