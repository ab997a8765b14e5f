namespace HartRuntime.Image

/-- The lines of the linker script. Code and read-only data stay in flash; data runs in
    RAM and is loaded from flash; bss takes up RAM alone. The two memory regions come
    from the included file. -/
def scriptLines : List String :=
  [ "/* 需要同目录下的 memory.x 提供 FLASH 与 RAM 两个区域 */",
    "OUTPUT_ARCH(riscv)",
    "ENTRY(_start)",
    "INCLUDE memory.x",
    "",
    "SECTIONS",
    "\x7b",
    "    .text : \x7b",
    "        __start = .;",
    "        *(.text.entry)",
    "        *(.text.trap)",
    "        *(.text .text.*)",
    "    \x7d > FLASH",
    "",
    "    .rodata : ALIGN(4) \x7b",
    "        *(.rodata .rodata.*)",
    "        *(.srodata .srodata.*)",
    "    \x7d > FLASH",
    "",
    "    .data : ALIGN(4) \x7b",
    "        _sdata = .;",
    "        __global_pointer$ = . + 0x800;",
    "        *(.sdata .sdata.*)",
    "        *(.data .data.*)",
    "        . = ALIGN(4);",
    "        _edata = .;",
    "    \x7d > RAM AT > FLASH",
    "    _data_load_address = LOADADDR(.data);",
    "",
    "    .bss (NOLOAD) : ALIGN(4) \x7b",
    "        _sbss = .;",
    "        *(.sbss .sbss.*)",
    "        *(.bss .bss.*)",
    "        . = ALIGN(4);",
    "        _ebss = .;",
    "    \x7d > RAM",
    "",
    "    _stack_top = ORIGIN(RAM) + LENGTH(RAM);",
    "",
    "    /DISCARD/ : \x7b",
    "        *(.eh_frame)",
    "    \x7d",
    "\x7d" ]

/-- The linker script; every line ends in a line feed. -/
def script : String :=
  String.join (scriptLines.map (· ++ "\n"))

end HartRuntime.Image
