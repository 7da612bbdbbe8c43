import CommentGrade.Path

/-!
# Detecting the language of a file

The name of a file decides, whatever its case: some whole names are known, otherwise its ending counts.
-/
namespace CommentGrade.Language

/-- The languages of file endings. -/
def endings : List (String × String) :=
  [
    (".adoc", "asciidoc"), (".asciidoc", "asciidoc"), (".cls", "apex"), (".js", "javascript"),
    (".mjs", "javascript"), (".cjs", "javascript"), (".jsx", "javascriptreact"), (".ts", "typescript"),
    (".tsx", "typescriptreact"), (".al", "al"), (".c", "c"), (".h", "c"), (".cpp", "cpp"), (".cc", "cpp"),
    (".cxx", "cpp"), (".hpp", "cpp"), (".hh", "cpp"), (".cs", "csharp"), (".dart", "dart"),
    (".fs", "fsharp"), (".fsx", "fsharp"), (".go", "go"), (".groovy", "groovy"), (".gradle", "groovy"),
    (".hx", "haxe"), (".java", "java"), (".jsonc", "jsonc"), (".kt", "kotlin"), (".kts", "kotlin"),
    (".less", "less"), (".pas", "pascal"), (".pp", "objectpascal"), (".php", "php"), (".rs", "rust"),
    (".scala", "scala"), (".sass", "sass"), (".scss", "scss"), (".shader", "shaderlab"),
    (".styl", "stylus"), (".swift", "swift"), (".v", "verilog"), (".sv", "verilog"), (".vue", "vue"),
    (".css", "css"), (".coffee", "coffeescript"), (".gd", "gdscript"), (".graphql", "graphql"),
    (".gql", "graphql"), (".jl", "julia"), (".mk", "makefile"), (".pl", "perl"), (".pm", "perl"),
    (".raku", "perl6"), (".p6", "perl6"), (".r", "r"), (".rb", "ruby"), (".tcl", "tcl"), (".yaml", "yaml"),
    (".yml", "yaml"), (".sh", "shellscript"), (".bash", "shellscript"), (".zsh", "shellscript"),
    (".ex", "elixir"), (".exs", "elixir"), (".py", "python"), (".pyw", "python"), (".nim", "nim"),
    (".ps1", "powershell"), (".psm1", "powershell"), (".ada", "ada"), (".adb", "ada"), (".ads", "ada"),
    (".hql", "hive-sql"), (".pig", "pig"), (".pls", "plsql"), (".pkb", "plsql"), (".sql", "sql"),
    (".lua", "lua"), (".elm", "elm"), (".hs", "haskell"), (".brs", "brightscript"), (".puml", "diagram"),
    (".plantuml", "diagram"), (".vb", "vb"), (".bib", "bibtex"), (".erl", "erlang"), (".hrl", "erlang"),
    (".tex", "latex"), (".m", "matlab"), (".clj", "clojure"), (".cljs", "clojure"), (".rkt", "racket"),
    (".lisp", "lisp"), (".lsp", "lisp"), (".el", "lisp"), (".tf", "terraform"), (".cbl", "COBOL"),
    (".cob", "COBOL"), (".f90", "fortran-modern"), (".f95", "fortran-modern"), (".sas", "SAS"),
    (".do", "stata"), (".html", "html"), (".htm", "html"), (".md", "markdown"), (".markdown", "markdown"),
    (".xml", "xml"), (".twig", "twig"), (".gen", "genstat"), (".cfm", "cfml"), (".cfc", "cfml"),
    (".txt", "plaintext")]

/-- The languages of files that are known by their whole name. -/
def fileNames : List (String × String) :=
  [
    ("dockerfile", "dockerfile"), ("makefile", "makefile"), ("gnumakefile", "makefile"),
    ("gemfile", "ruby"), ("rakefile", "ruby"), ("jenkinsfile", "groovy")]

def lowerText (s : String) : String := String.ofList (Text.lower s.toList)

/-- The language of a file with this name. -/
def ofFileName? (name : String) : Option String :=
  match fileNames.lookup (lowerText name) with
  | some id => some id
  | none => endings.lookup (String.ofList (Text.lower (nameSuffix name.toList)))

/-- The language of the file that a path leads to. -/
def ofPath? (path : String) : Option String := ofFileName? (Path.ofString path).name

end CommentGrade.Language
