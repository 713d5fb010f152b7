import MetadataClient.Config.Text
import MetadataClient.FileTree

/-! A configuration kept in a file. -/
namespace MetadataClient.Config

def load (tree : FileTree) (path : Path) : Except Error Config :=
  ((tree.read path).mapError .file).bind parse

def save (config : Config) (tree : FileTree) (path : Path) : Except Error Unit × FileTree :=
  let (answer, after) := tree.save path config.text
  (answer.mapError .file, after)

end MetadataClient.Config
