import MdxMend.Text.Lowercase

/-!
# Language tags of fenced blocks

A highlighter refuses a block whose tag is missing or is a placeholder such as `none`. `resolve?`
gives the tag that such a block should carry instead. A tag that is neither known nor a known
placeholder may still mean something to the highlighter, so it stays.
-/

namespace MdxMend.Language

/-- The tag of a block in no particular language. -/
def fallback : String := "text"

/-- The tags that the highlighter accepts: markup, the web, data and configuration, shells,
programming languages, tools. -/
def known : List String := [
  "text", "plaintext", "txt",
  "markdown", "md", "mdx", "html", "xml", "svg", "latex", "tex", "rst",
  "javascript", "js", "jsx", "typescript", "ts", "tsx", "css", "scss", "sass", "less", "vue",
  "svelte", "graphql", "gql",
  "json", "jsonc", "json5", "yaml", "yml", "toml", "ini", "csv", "env", "dotenv", "properties",
  "proto", "protobuf", "hcl", "terraform", "nginx", "dockerfile", "docker", "makefile", "make",
  "bash", "sh", "shell", "zsh", "fish", "console", "powershell", "ps1", "bat", "cmd",
  "rust", "rs", "c", "cpp", "c++", "h", "csharp", "cs", "fsharp", "go", "golang", "zig",
  "java", "kotlin", "kt", "scala", "swift", "objectivec", "dart", "python", "py", "ruby", "rb",
  "php", "perl", "lua", "r", "julia", "haskell", "hs", "elixir", "erlang", "clojure", "ocaml",
  "nix", "sql", "wasm",
  "diff", "patch", "git", "http", "log", "regex", "mermaid"]

/-- Tags that the highlighter refuses, each with the tag to write instead. -/
def substitutes : List (String × String) := [
  ("argdown", "markdown"), ("n/a", fallback), ("none", fallback), ("null", fallback),
  ("undefined", fallback), ("plain", fallback)]

/-- A tag as the tables spell it: without blanks at its ends, in lower case. -/
def normalize (tag : Text) : String := String.ofList (Text.lowercase (Text.trim tag))

/-- Whether the highlighter accepts the tag. -/
def isKnown (tag : Text) : Bool := known.contains (normalize tag)

/-- The tag to write in place of `tag`, or nothing if `tag` may stay. -/
def resolve? (tag : Text) : Option String :=
  if isKnown tag then none
  else if (normalize tag).isEmpty then some fallback
  else substitutes.lookup (normalize tag)

end MdxMend.Language
