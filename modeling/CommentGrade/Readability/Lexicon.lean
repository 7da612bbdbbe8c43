/-!
# The lexicon

How many syllables a word has, and whether every reader knows it. Only words with another answer than "one
syllable, not known to every reader" are listed.
-/
namespace CommentGrade.Readability

/-- Words that agree in their number of syllables and in whether they are easy. -/
structure WordGroup where
  syllables : Nat
  easy : Bool
  words : List String

/-- The listed words, in small letters. -/
def lexicon : List WordGroup :=
  [⟨0, false, [
      "hm", "shh"]⟩,
    ⟨1, true, [
      "a", "act", "add", "air", "all", "an", "and", "are", "as", "ask", "at", "back", "be", "been", "big",
      "block", "boy", "brown", "build", "but", "by", "call", "came", "can", "can't", "cat", "cause",
      "change", "check", "come", "could", "dash", "day", "did", "do", "does", "dog", "don't", "down",
      "each", "earth", "eight", "end", "fall", "file", "find", "first", "five", "fix", "for", "form",
      "four", "fox", "from", "get", "give", "go", "good", "great", "had", "hand", "has", "have", "he",
      "help", "her", "here", "high", "him", "his", "home", "house", "how", "i", "i've", "if", "in", "is",
      "it", "it's", "just", "keep", "kind", "know", "land", "large", "light", "like", "line", "live",
      "load", "long", "look", "low", "made", "make", "man", "mat", "may", "me", "mean", "men", "more",
      "most", "move", "much", "must", "my", "name", "near", "need", "new", "nine", "no", "not", "note",
      "now", "of", "off", "old", "on", "one", "or", "out", "part", "place", "play", "point", "put", "quick",
      "read", "right", "round", "run", "said", "same", "sat", "say", "see", "self", "set", "she", "she'd",
      "ship", "short", "should", "show", "side", "six", "small", "smart", "so", "some", "spell", "start",
      "stream", "such", "tag", "take", "tell", "than", "that", "the", "their", "them", "then", "there",
      "these", "they", "they'd", "they'll", "they're", "they've", "thing", "think", "this", "thread",
      "three", "through", "time", "to", "too", "tool", "try", "turn", "two", "up", "us", "use", "wait",
      "want", "was", "way", "we", "we'll", "well", "went", "were", "what", "when", "where", "which", "who",
      "why", "will", "with", "won't", "word", "work", "world", "would", "write", "year", "yes", "you",
      "your"]⟩,
    ⟨2, false, [
      "_private", "abcdefg", "abcdefgh", "atst1t", "blockchain", "bt", "btheat", "buffer", "callback",
      "callers", "camelcase", "cd", "checksum", "circles", "comment", "compute", "data", "defaults",
      "differ", "dingdong", "dolor", "email", "error", "facade", "foobar", "function", "handler", "handles",
      "initialised", "ipsum", "james's", "malloc", "mapping", "missing", "monads", "mr", "mrs", "mutex",
      "naive", "nested", "numbers", "ok", "onomatopoeia", "options", "output", "parser", "parses",
      "pointer", "python", "quoted", "raises", "refactor", "release", "resume", "returns", "rhythm",
      "saying", "sbsss", "schema", "settings", "snake_case", "socket", "ss", "the_'t_aasébthebtheb1",
      "theba", "todo", "trailing", "tthebé_", "ttté1", "tuple", "unicode", "user", "utf8", "values", "vs",
      "webhook", "wellknown"]⟩,
    ⟨2, true, [
      "about", "after", "again", "also", "any", "aren't", "because", "before", "broken", "caller", "cannot",
      "couldn't", "counter", "empty", "even", "explain", "father", "follow", "goodbye", "handle", "happy",
      "hello", "isn't", "lazy", "little", "many", "maybe", "mother", "number", "only", "open", "other",
      "our", "over", "people", "picture", "really", "return", "second", "sentence", "seven", "today",
      "under", "very", "water", "written"]⟩,
    ⟨3, false, [
      "'single", "__dunder__", "abc", "ass1'tas", "checksumint", "compiler", "database", "exception",
      "getelementbyid", "heuristic", "interface", "istanbul", "i̇stanbul", "jsonparser", "kebabcase",
      "kubernetes", "languages", "ligatures", "microservices", "motherinlaw", "oldfashioned", "overflow",
      "pascalcase", "ratio", "recursion", "refactoring", "rocknroll", "screaming_case", "sevenee",
      "subclassing", "transaction", "usa", "usrbinenv", "washington"]⟩,
    ⟨3, true, [
      "animal", "beautiful", "different", "every", "family"]⟩,
    ⟨4, false, [
      "algorithm", "application", "asynchronous", "calculation", "concurrency", "dependency", "deprecated",
      "directory", "environment", "etc", "httpexamplecomabcdef", "immutable", "infrastructure",
      "initialize", "invariant", "iterator", "necessitates", "parameter", "parameters", "polymorphic",
      "stateoftheart", "temporary", "tokenizer", "userexamplecom", "variable"]⟩,
    ⟨5, false, [
      "approximately", "authentication", "configuration", "documentation", "encapsulation", "imagination",
      "implementation", "longesthyphenatedwordinhere", "polymorphism", "probability", "repository",
      "serialization", "specification", "synchronization", "unfortunately"]⟩,
    ⟨5, true, [
      "electricity"]⟩,
    ⟨6, false, [
      "compatibility", "deserializer", "extraordinary", "responsibility"]⟩,
    ⟨7, false, [
      "interoperability"]⟩,
    ⟨12, false, [
      "antidisestablishmentarianism"]⟩]

/-- The group of a word, if it is listed. -/
def groupOf? (word : List Char) : Option WordGroup :=
  let w := String.ofList word
  lexicon.find? (·.words.contains w)

/-- The number of syllables of a word in small letters. -/
def wordSyllables (word : List Char) : Nat := ((groupOf? word).map (·.syllables)).getD 1

/-- Whether every reader knows a word in small letters. -/
def isEasy (word : List Char) : Bool := ((groupOf? word).map (·.easy)).getD false

end CommentGrade.Readability
