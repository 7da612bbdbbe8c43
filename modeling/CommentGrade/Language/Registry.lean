import CommentGrade.Language.Profile

/-!
# The registry of languages

Languages are named by their editor identifiers. Those with the same comment forms share a profile. Where an
identifier is listed twice, the first entry counts.
-/
namespace CommentGrade.Language

open Profile

def asciidocProfile : Profile := Profile.blocks "//" "////" "////"
def documentedProfile : Profile := { Profile.blocks "//" "/*" "*/" with docBlocks := true }
def slashesProfile : Profile := Profile.blocks "//" "/*" "*/"
def cssProfile : Profile := Profile.blocks "/*" "/*" "*/"
def hashProfile : Profile := Profile.line "#"
def shellProfile : Profile := { Profile.line "#" with skipsFirstLine := true }
def tripleQuotesProfile : Profile := { Profile.blocks "#" "\"\"\"" "\"\"\"" with skipsFirstLine := true }
def nimProfile : Profile := Profile.blocks "#" "#[" "]#"
def powershellProfile : Profile := Profile.blocks "#" "<#" "#>"
def dashesProfile : Profile := Profile.line "--"
def luaProfile : Profile := Profile.blocks "--" "--[[" "]]"
def haskellProfile : Profile := Profile.blocks "--" "\x7b-" "-\x7d"
def apostropheProfile : Profile := Profile.line "'"
def percentProfile : Profile := Profile.line "%"
def semicolonProfile : Profile := Profile.line ";"
def terraformProfile : Profile := Profile.blocks "#" "/*" "*/"
def cobolProfile : Profile := Profile.line "*>"
def fortranProfile : Profile := Profile.line "c"
def starProfile : Profile := Profile.blocks "*" "/*" "*/"
def markupProfile : Profile := Profile.blocks "<!--" "<!--" "-->"
def twigProfile : Profile := Profile.blocks "\x7b#" "\x7b#" "#\x7d"
def genstatProfile : Profile := Profile.blocks "\\" "\"" "\""
def cfmlProfile : Profile := Profile.blocks "<!---" "<!---" "--->"

/-- The identifiers with the profile they share. -/
def groups : List (List String × Profile) :=
  [(["asciidoc"], asciidocProfile),
    (["apex", "javascript", "javascriptreact", "typescript", "typescriptreact"], documentedProfile),
    (["al", "c", "cpp", "csharp", "dart", "flax", "fsharp", "go", "groovy", "haxe", "java", "jsonc",
      "kotlin", "less", "pascal", "objectpascal", "php", "rust", "scala", "sass", "scss", "shaderlab",
      "stylus", "swift", "verilog", "vue"],
      slashesProfile),
    (["css"], cssProfile),
    (["coffeescript", "dockerfile", "gdscript", "graphql", "julia", "makefile", "perl", "perl6", "puppet",
      "r", "ruby", "tcl", "yaml"],
      hashProfile),
    (["shellscript", "tcl"], shellProfile),
    (["elixir", "python"], tripleQuotesProfile),
    (["nim"], nimProfile),
    (["powershell"], powershellProfile),
    (["ada", "hive-sql", "pig", "plsql", "sql"], dashesProfile),
    (["lua"], luaProfile),
    (["elm", "haskell"], haskellProfile),
    (["brightscript", "diagram", "vb"], apostropheProfile),
    (["bibtex", "erlang", "latex", "matlab"], percentProfile),
    (["clojure", "racket", "lisp"], semicolonProfile),
    (["terraform"], terraformProfile),
    (["COBOL"], cobolProfile),
    (["fortran-modern"], fortranProfile),
    (["SAS", "stata"], starProfile),
    (["html", "markdown", "xml"], markupProfile),
    (["twig"], twigProfile),
    (["genstat"], genstatProfile),
    (["cfml"], cfmlProfile)]

/-- The identifier of text that is no source code. -/
def plainTextId : String := "plaintext"

/-- All identifiers in the registry, each once. -/
def registered : List String := (groups.flatMap (·.1)).eraseDups

/-- All identifiers with comments to find: those of the registry in alphabetical order, then plain text. -/
def supportedIds : List String := registered.mergeSort (fun a b => decide (a ≤ b)) ++ [plainTextId]

/-- The profile that the registry has for an identifier. -/
def registryProfile? (id : String) : Option Profile :=
  (groups.find? fun g => g.1.contains id).map (·.2)

/-- The profile of plain text, whose lines count as comments only where this is wanted. -/
def plainTextProfile (wanted : Bool) : Profile := { supported := wanted, plainText := true }

def profileFor (id : String) (plainTextWanted : Bool) : Profile :=
  if id = plainTextId then plainTextProfile plainTextWanted
  else (registryProfile? id).getD unsupported

end CommentGrade.Language
